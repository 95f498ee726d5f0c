import MappedSql.Proofs.Systems

/-!
# Results after a commit

What selects show once an update has been committed through a statement that flushes the cache
they go through. The commit clears the cache, and what a session has read since its update
includes the update. But another session may have read before the commit and publish after it,
and then the older result is served.
-/

namespace MappedSql

open Ledger

variable {σ : Type} {i j n : Nat} {r : CacheRef} {rows : ResultSet} {l l' : Ledger}

-- ---------------------------------------------------------------------------
-- Results and updates
-- ---------------------------------------------------------------------------

def Fresh (n : Nat) (rows : ResultSet) (l : Ledger) : Prop :=
  ∃ read ∈ l.reads, read.Gives rows ∧ read.Sees n

theorem Fresh.acts (h : Fresh n rows l) (ha : Acts j l l') : Fresh n rows l' := by
  obtain ⟨read, hm, hg, hs⟩ := h
  exact ⟨read, ha.reads hm, hg, hs⟩

theorem fresh_of_fetched (hc : n ∈ l.committed) (h : Fetched j l rows l') : Fresh n rows l' := by
  obtain ⟨l₀, found, h₀, -, hw, hg⟩ := h
  exact ⟨l₀.readOf j found, hw.reads (List.mem_append_right _ List.mem_cons_self), hg,
    .inl (h₀.committed hc)⟩

/-- A session sees its own updates for as long as it has not given them up. -/
theorem fresh_or_given_up_of_fetched (hn : n < l.next) (h : Fetched j l rows l') :
    Fresh n rows l' ∨ ¬ (l'.accounts j).Holds n := by
  obtain ⟨l₀, found, h₀, hs, hw, hg⟩ := h
  by_cases hh : (l₀.accounts j).Holds n
  · refine .inl ⟨l₀.readOf j found, hw.reads (List.mem_append_right _ List.mem_cons_self), hg, ?_⟩
    rcases hh with hh | ⟨handle, hh⟩
    · exact .inr hh
    · simp [hs handle] at hh
  · exact .inr fun hh' => hh (hw.held n (Nat.lt_of_lt_of_le hn h₀.next) hh')

namespace System

variable {s s' : System σ} {e : Event σ}

-- ---------------------------------------------------------------------------
-- Sessions over one cache
-- ---------------------------------------------------------------------------

/-- A session looks for results in one cache at most. -/
structure Attached (r : CacheRef) (session : Session (Ledgered σ)) : Prop where
  uses : session.configuration.Uses (· = r)
  caching : session.executor.overlays.isSome = true
  targets : session.executor.Targets (· = r)

theorem start_attached {c : Configuration} (hc : c.cachesEnabled = true) (hu : c.Uses (· = r))
    (t : Transaction (Ledgered σ)) (type : ExecutorType) : Attached r (.start c t type) := by
  have he : (Session.start c t type).executor = .caching c t type := by
    simp [Session.start, Executor.start, hc]
  refine ⟨?_, by rw [he]; rfl, ?_⟩
  · change Configuration.Uses (· = r) (Session.start c t type).executor.worker.configuration
    rw [he]
    exact hu
  · rw [he]
    intro os ho
    cases ho
    exact fun o hm => absurd hm List.not_mem_nil

/-- All sessions have caching on and go through one cache. -/
structure OneCache (r : CacheRef) (s : System σ) : Prop where
  sound : s.Sound
  attached : s.Each (Attached r)

def Joins (r : CacheRef) (e : Event σ) : Prop :=
  e.Opens fun c => c.cachesEnabled = true ∧ c.Uses (· = r)

theorem OneCache.cases (h : OneCache r s) (e : Event σ) : Step (· = r) s e (s.step e) :=
  step_cases h.sound (fun j session hj => (h.attached j session hj).uses) e

theorem OneCache.step (h : OneCache r s) (he : Joins r e) : OneCache r (s.step e) := by
  refine ⟨(h.cases e).sound h.sound, (h.cases e).each h.sound ?_ ?_ h.attached⟩
  · rintro c d timeout type rfl
    exact start_attached he.1 he.2 _ type
  · intro j c reply z z' hm hz
    exact ⟨hm.configuration ▸ hz.uses, hm.caching.trans hz.caching, hm.targets hz.targets⟩

theorem OneCache.run {events : List (Event σ)} (h : OneCache r s) (he : ∀ e ∈ events, Joins r e) :
    OneCache r (s.run events) :=
  run_induction (I := fun _ => OneCache r) h fun _ e hp hs =>
    hs.step (he e (hp.subset (List.mem_append_right _ List.mem_cons_self)))

theorem Step.acts {U : CacheRef → Prop} (hs : s.Sound) (h : Step U s e s') :
    ∃ i, Acts i (ledger s) (ledger s') := by
  cases h with
  | opens c d timeout type => exact ⟨0, refl_of _ _⟩
  | unopened c hj => exact ⟨0, refl_of _ _⟩
  | @call j c session session' world reply hj hr h =>
    exact ⟨j, (h.moves (hs.sessions j session hj)).acts⟩

-- ---------------------------------------------------------------------------
-- From the update to its commit
-- ---------------------------------------------------------------------------

/-- A session that is open clears a cache when it commits, unless it has given up an update. -/
def WillClear (i j n : Nat) (z : Session (Ledgered σ) × World (Ledgered σ)) : Prop :=
  z.1.isClosed = false → z.1.Clears i ∨ ¬ ((ledger z).accounts j).Holds n

theorem WillClear.moves {z z' : Session (Ledgered σ) × World (Ledgered σ)}
    {U : CacheRef → Prop} {c : Call} {reply : Except Error Reply} (h : WillClear i j n z)
    (hn : n < (ledger z).next) (hs' : Session.Sound j z') (hm : Call.Moves j U c reply z z')
    (hok : c.IsRollback → reply.isOk = true) : WillClear i j n z' := by
  intro ho'
  have ho : z.1.isClosed = false := by
    cases ho : z.1.isClosed with
    | false => rfl
    | true => exact absurd (ho'.symm.trans (hm.closed ho)) Bool.false_ne_true
  rcases h ho with hc | hgone
  · rcases hm.clears ho' i hc with hc | hrests | ⟨hroll, hfails⟩
    · exact .inl hc
    · exact .inr (hs'.not_holds hrests n)
    · exact absurd (hfails.symm.trans (hok hroll)) Bool.false_ne_true
  · exact .inr fun hh => hgone (hm.acts.held n hn hh)

/-- An update that its session has made and not committed. As long as the session has not given
it up, it will clear the cache when it commits, and it holds nothing that it has read before
the update. -/
structure Pending (r : CacheRef) (j n : Nat) (s : System σ) : Prop where
  next : n < (ledger s).next
  clears : ∃ session, s.sessions[j]? = some session ∧ WillClear r.index j n (session, s.world)
  held : s.Held fun i entry l => i = j → Fresh n entry.2 l ∨ ¬ (l.accounts j).Holds n

/-- No event is a rollback of a session that fails. -/
def NoFailedRollback (j : Nat) (s : System σ) (e : Event σ) : Prop :=
  ∀ force reply, e = .call j (.rollback force) → s.reply? j (.rollback force) = some reply →
    reply.isOk = true

theorem Pending.step (hs : OneCache r s) (he : Joins r e) (hr : NoFailedRollback j s e)
    (h : Pending r j n s) : Pending r j n (s.step e) := by
  have hstep := hs.cases e
  have hs' := (hs.step he).sound
  obtain ⟨i, hi⟩ := hstep.acts hs.sound
  refine ⟨Nat.lt_of_lt_of_le h.next hi.next, ?_, ?_⟩
  · obtain ⟨own, hown, hclears⟩ := h.clears
    have hlt := (List.getElem?_eq_some_iff.mp hown).1
    generalize s.step e = s' at *
    cases hstep with
    | opens c d timeout type =>
      exact ⟨own, (List.getElem?_append_left hlt).trans hown, hclears⟩
    | unopened c hj => exact ⟨own, hown, hclears⟩
    | @call k c session session' world reply hk hreply heffect =>
      have hm := heffect.moves (hs.sound.sessions k session hk)
      by_cases hkj : k = j
      · subst hkj
        cases hown.symm.trans hk
        have hk' := List.getElem?_set_self (a := session') hlt
        refine ⟨session', hk', hclears.moves h.next (hs'.sessions k session' hk') hm fun hc => ?_⟩
        cases c with
        | rollback force => exact hr force reply rfl hreply
        | _ => exact hc.elim
      · refine ⟨own, (List.getElem?_set_ne hkj).trans hown, fun ho => ?_⟩
        have ha : (ledger world).accounts j = (ledger s).accounts j :=
          hm.acts.others j (Ne.symm hkj)
        change own.Clears r.index ∨ ¬ ((ledger world).accounts j).Holds n
        rw [ha]
        exact hclears ho
  · refine hstep.held hs.sound ?_ ?_ ?_ h.held
    · rintro j entry l' hh hw rfl
      exact (hh rfl).imp (·.acts hw.toActs) fun hgone hh => hgone (hw.held n h.next hh)
    · rintro i k entry l' hne hh ha rfl
      rw [ha.others i hne]
      exact (hh rfl).imp_left (·.acts ha)
    · rintro j entry l' hf rfl
      exact fresh_or_given_up_of_fetched h.next hf

-- ---------------------------------------------------------------------------
-- After the commit
-- ---------------------------------------------------------------------------

def HeldBy (i : Nat) (entry : CacheKey × ResultSet) (s : System σ) : Prop :=
  ∃ session, s.sessions[i]? = some session ∧ session.Holds entry

/-- An entry that a session held in a state, and may have published by one of the later
events. -/
def PublishedLate (s : System σ) (later : List (Event σ)) (entry : CacheKey × ResultSet) : Prop :=
  ∃ i c, s.HeldBy i entry ∧ c.Publishes ∧ .call i c ∈ later

/-- What the cache and the sessions hold once an update is committed, if it was not held before,
includes the update. -/
structure Settled (r : CacheRef) (n : Nat) (s : System σ) (later : List (Event σ))
    (s' : System σ) : Prop where
  committed : n ∈ (ledger s').committed
  shared : ∀ entry, s'.world.caches.Has r.index entry →
    Fresh n entry.2 (ledger s') ∨ s.PublishedLate later entry
  held : s'.Held fun i entry l => Fresh n entry.2 l ∨ s.HeldBy i entry

theorem Settled.step {later : List (Event σ)} (hs' : OneCache r s') (h : Settled r n s later s') :
    Settled r n s (later ++ [e]) (s'.step e) := by
  have hstep := hs'.cases e
  obtain ⟨i, hi⟩ := hstep.acts hs'.sound
  have hshared (entry : CacheKey × ResultSet) (hh : s'.world.caches.Has r.index entry) :
      Fresh n entry.2 (ledger (s'.step e)) ∨ s.PublishedLate (later ++ [e]) entry := by
    rcases h.shared entry hh with hf | ⟨i, c, hheld, hc, hm⟩
    · exact .inl (hf.acts hi)
    · exact .inr ⟨i, c, hheld, hc, List.mem_append_left _ hm⟩
  refine ⟨hi.committed h.committed, fun entry hh => ?_, ?_⟩
  · generalize s'.step e = s'' at *
    cases hstep with
    | opens c d timeout type => exact hshared entry hh
    | unopened c hj => exact hshared entry hh
    | @call k c session session' world reply hk hreply heffect =>
      have hm := heffect.moves (hs'.sound.sessions k session hk)
      rcases hm.shared r.index entry hh with hh | ⟨hheld, hc, -⟩
      · exact hshared entry hh
      · rcases h.held k session hk entry hheld with hf | hheld
        · exact .inl (hf.acts hi)
        · exact .inr ⟨k, c, hheld, hc, List.mem_append_right _ List.mem_cons_self⟩
  · refine hstep.held hs'.sound ?_ ?_ ?_ h.held
    · exact fun j entry l' hh hw => hh.imp_left (·.acts hw.toActs)
    · exact fun i k entry l' _ hh ha => hh.imp_left (·.acts ha)
    · exact fun j entry l' hf => .inl (fresh_of_fetched h.committed hf)

end System

-- ---------------------------------------------------------------------------
-- An update and its commit
-- ---------------------------------------------------------------------------

structure Commitment (σ : Type) where
  session : Nat
  statement : String
  argument : Argument
  between : List (Event σ)
  force : Bool

namespace Commitment

open MappedSql.System

variable (m : Commitment σ) {s : System σ}

def updated (s : System σ) : System σ :=
  s.step (.call m.session (.update m.statement m.argument))

def ready (s : System σ) : System σ :=
  (m.updated s).run m.between

def done (s : System σ) : System σ :=
  (m.ready s).step (.call m.session (.commit m.force))

/-- The update is made through a statement that flushes the cache, no rollback of the session
fails before the commit, and the commit succeeds. -/
structure Lands (r : CacheRef) (n : Nat) (s : System σ) : Prop where
  statement : ∃ session statement, s.sessions[m.session]? = some session ∧
    session.configuration.statement m.statement = .ok statement ∧
    statement.cache = some r ∧ statement.flushesCache = true
  made : (ledger s).next ≤ n ∧ n < (ledger (m.updated s)).next
  rollbacks : ∀ before e, before ++ [e] <+: m.between →
    NoFailedRollback m.session ((m.updated s).run before) e
  pending : n ∉ (ledger (m.ready s)).committed
  succeeds : (m.ready s).reply? m.session (.commit m.force) = some (.ok .done)
  committed : n ∈ (ledger (m.done s)).committed

variable {m}

theorem Lands.updates (hs : OneCache r s) (h : m.Lands r n s) :
    ∃ session session' world statement, s.sessions[m.session]? = some session ∧
      m.updated s = { sessions := s.sessions.set m.session session', world } ∧
      statement.cache = some r ∧ statement.flushesCache = true ∧
      Session.Updates m.session (· = r) statement (session, s.world) (session', world) := by
  obtain ⟨session, statement, hj, hstatement, hcache, hflushes⟩ := h.statement
  obtain ⟨d, hd⟩ := (hs.sound.sessions m.session session hj).driver
  let Q (_ : Reply) (z' : Session (Ledgered σ) × World (Ledgered σ)) : Prop :=
    ∃ statement, session.configuration.statement m.statement = .ok statement ∧
      Session.Updates m.session (· = r) statement (session, s.world) z'
  obtain ⟨session', world, reply, hstep, -, hok, herror⟩ :=
    step_call (c := .update m.statement m.argument) (Q := Q) hj (.bind (Session.update_ok hd
      (hs.attached m.session session hj).uses m.statement m.argument) fun _ _ hu => .pure hu)
  have hcase : (session', world) = (session, s.world) ∨ Q .done (session', world) := by
    cases reply with
    | ok reply => exact .inr (hok reply rfl)
    | error cause => exact herror cause rfl
  rcases hcase with he | ⟨_, hfound, hu⟩
  · have hn : (ledger (m.updated s)).next = (ledger s).next := by
      rw [Commitment.updated, hstep]
      exact congrArg (fun z : Session _ × World _ => (ledger z).next) he
    exact absurd (hn ▸ h.made.2) (Nat.not_lt_of_le h.made.1)
  · cases hstatement.symm.trans hfound
    exact ⟨session, session', world, statement, hj, hstep, hcache, hflushes, hu⟩

theorem Lands.updated (hs : OneCache r s) (h : m.Lands r n s) :
    OneCache r (m.updated s) ∧ Pending r m.session n (m.updated s) := by
  have hs' : OneCache r (m.updated s) := hs.step trivial
  obtain ⟨session, session', world, statement, hj, hstep, hcache, hflushes, hu⟩ := h.updates hs
  have ha := hs.attached m.session session hj
  have hj' : (m.updated s).sessions[m.session]? = some session' := by
    rw [hstep]
    exact List.getElem?_set_self (List.getElem?_eq_some_iff.mp hj).1
  have hclears := (hu.executor.flushed r hcache hflushes ha.caching ha.targets).2
  refine ⟨hs', h.made.2, ⟨session', hj', fun _ => .inl hclears⟩, ?_⟩
  rintro _ other ho entry he rfl
  cases hj'.symm.trans ho
  have hsound := hs'.sound.sessions _ _ hj'
  rw [hstep] at hsound
  exact absurd he (hu.not_holds hsound hcache hflushes ha.caching ha.targets entry)

theorem Lands.ready (hs : OneCache r s) (h : m.Lands r n s)
    (hjoins : ∀ e ∈ m.between, Joins r e) :
    OneCache r (m.ready s) ∧ Pending r m.session n (m.ready s) := by
  refine run_induction (I := fun _ s => OneCache r s ∧ Pending r m.session n s) (h.updated hs) ?_
  rintro before e hp ⟨hs, hpending⟩
  have he := hjoins e (hp.subset (List.mem_append_right _ List.mem_cons_self))
  exact ⟨hs.step he, hpending.step hs he (h.rollbacks before e hp)⟩

theorem Lands.commits (hs : OneCache r (m.ready s)) (h : m.Lands r n s)
    {session : Session (Ledgered σ)} (hj : (m.ready s).sessions[m.session]? = some session) :
    ∃ session' world,
      m.done s = { sessions := (m.ready s).sessions.set m.session session', world } ∧
      Session.Commits m.session m.force (session, (m.ready s).world) (session', world) := by
  obtain ⟨d, hd⟩ := (hs.sound.sessions m.session session hj).driver
  obtain ⟨session', world, reply, hstep, hreply, hok, -⟩ := step_call (c := .commit m.force)
    (Q := fun _ z' => Session.Commits m.session m.force (session, (m.ready s).world) z')
    hj (.bind (Session.commit_ok (U := (· = r)) hd m.force) fun _ _ h => .pure h)
  exact ⟨session', world, hstep, hok .done (Option.some.inj (hreply.symm.trans h.succeeds))⟩

theorem Lands.done (hs : OneCache r s) (h : m.Lands r n s)
    (hjoins : ∀ e ∈ m.between, Joins r e) :
    OneCache r (m.done s) ∧ Settled r n (m.done s) [] (m.done s) ∧
      ∀ entry, ¬ (m.done s).HeldBy m.session entry := by
  obtain ⟨hs, hpending⟩ := h.ready hs hjoins
  obtain ⟨session, hj, hclears⟩ := hpending.clears
  obtain ⟨session', world, hdone, hcommits⟩ := h.commits hs hj
  have hworks := hcommits.executor.worker.works
  have hcommitted := h.committed
  have hs' : OneCache r (m.done s) := hs.step trivial
  have hj' : (m.done s).sessions[m.session]? = some session' := by
    rw [hdone]
    exact List.getElem?_set_self (List.getElem?_eq_some_iff.mp hj).1
  generalize m.done s = s' at *
  subst hdone
  -- the commit makes the update, so that the session cannot have given it up before
  have hheld : ((ledger (m.ready s)).accounts m.session).Holds n :=
    (hworks.made n hpending.next hcommitted).resolve_left h.pending
  have hfresh (entry : CacheKey × ResultSet) (he : session.Holds entry) :
      Fresh n entry.2 (ledger world) :=
    ((hpending.held m.session session hj entry he rfl).resolve_right
      fun hgone => hgone hheld).acts hworks.toActs
  refine ⟨hs', ⟨hcommitted, fun entry hh => .inl ?_, fun i other hi entry he => ?_⟩, ?_⟩
  · rcases hcommits.executor.shared r.index entry hh with ⟨-, hc⟩ | hw
    · exact absurd ((hclears hcommits.executor.wasOpen).resolve_right fun hgone => hgone hheld) hc
    · exact hfresh entry (.inr hw)
  · exact .inr ⟨other, hi, he⟩
  · rintro entry ⟨other, ho, he⟩
    cases hj'.symm.trans ho
    exact hcommits.not_holds entry he

end Commitment

namespace System

/-- Sessions go through one cache. A session commits an update that it has made through a
statement that flushes the cache. Then a select of a session that is opened later shows a result
that includes the update, unless another session already held the result that is shown when
the update was committed, and has made a call since that publishes what it holds. -/
theorem selects_show_committed_updates_or_late_results (caches : Caches) (state : σ)
    (r : CacheRef) (before later : List (Event σ)) (m : Commitment σ) {n k : Nat} {c : Call}
    {reply : Reply} (hjoins : ∀ e ∈ before ++ m.between ++ later, Joins r e)
    (hlands : m.Lands r n ((start caches state).run before))
    (hk : (m.done ((start caches state).run before)).sessions.length ≤ k) (hc : c.IsSelect)
    (hreply : ((m.done ((start caches state).run before)).run later).reply? k c =
      some (.ok reply)) :
    ∃ rows, c.Shows rows reply ∧
      (Fresh n rows (ledger
          (((m.done ((start caches state).run before)).run later).step (.call k c))) ∨
        ∃ i key c', i ≠ m.session ∧ c'.Publishes ∧ .call i c' ∈ later ∧
          (m.done ((start caches state).run before)).HeldBy i (key, rows)) := by
  have hstart : OneCache r (start caches state) :=
    ⟨start_sound caches state, fun _ _ hj => by simp [start] at hj⟩
  have hbefore : OneCache r ((start caches state).run before) :=
    hstart.run fun e he => hjoins e (List.mem_append_left _ (List.mem_append_left _ he))
  obtain ⟨hdone, hsettled, hnone⟩ := hlands.done hbefore fun e he =>
    hjoins e (List.mem_append_left _ (List.mem_append_right _ he))
  generalize m.done ((start caches state).run before) = s at *
  have hlater : OneCache r (s.run later) ∧ Settled r n s later (s.run later) := by
    refine run_induction (I := fun later s' => OneCache r s' ∧ Settled r n s later s')
      ⟨hdone, hsettled⟩ ?_
    rintro done e hp ⟨hs, h⟩
    refine ⟨hs.step ?_, h.step hs⟩
    have hm := hp.subset (List.mem_append_right _ List.mem_cons_self)
    exact hjoins e (List.mem_append_right _ hm)
  obtain ⟨hs', h⟩ := hlater
  generalize s.run later = s' at *
  cases hj : s'.sessions[k]? with
  | none => simp [reply?, hj] at hreply
  | some session =>
    have hsession := hs'.sound.sessions k session hj
    obtain ⟨d, hd⟩ := hsession.driver
    obtain ⟨session', world, outcome, hstep, hr, hok, -⟩ := step_call hj
      (Call.select_ok hd (hs'.attached k session hj).uses hsession.tidy hc)
    obtain ⟨hw, rows, hshows, key, ha⟩ := hok reply (Option.some.inj (hr.symm.trans hreply))
    refine ⟨rows, hshows, ?_⟩
    rw [hstep]
    have hnew (i : Nat) (hheld : s.HeldBy i (key, rows)) : i ≠ m.session ∧ i ≠ k := by
      refine ⟨?_, ?_⟩
      · rintro rfl
        exact hnone _ hheld
      · rintro rfl
        obtain ⟨other, hi, -⟩ := hheld
        exact Nat.not_le_of_lt (List.getElem?_eq_some_iff.mp hi).1 hk
    rcases ha with hheld | hf | ⟨r', hr', hh⟩
    · rcases h.held k session hj (key, rows) hheld with hf | hheld
      · exact .inl (hf.acts hw.toActs)
      · exact absurd rfl (hnew k hheld).2
    · exact .inl (fresh_of_fetched h.committed hf)
    · cases hr' (hs'.attached k session hj).targets
      rcases h.shared (key, rows) hh with hf | ⟨i, c', hheld, hc', hm⟩
      · exact .inl (hf.acts hw.toActs)
      · exact .inr ⟨i, key, c', (hnew i hheld).1, hc', hm, hheld⟩

theorem counter_joins (j : Nat) : Joins Counter.cache (Counter.opens j) := by
  refine ⟨rfl, fun id statement hs r hr => ?_⟩
  unfold Configuration.statement at hs
  split at hs
  · rename_i found hfound
    cases hs
    have hm := Keyed.mem_of_get? hfound
    simp only [Counter.configuration, List.mem_cons, Prod.mk.injEq, List.not_mem_nil,
      or_false] at hm
    rcases hm with ⟨-, rfl⟩ | ⟨-, rfl⟩ <;> exact (Option.some.inj hr).symm
  · cases hs

def counting : Commitment Counter where
  session := 1
  statement := "count"
  argument := .null
  between := [Counter.looks 1]
  force := false

def lookedBefore : List (Event Counter) :=
  [Counter.opens 0, Counter.looks 0, Counter.commits 0, Counter.opens 1]

theorem later_session_sees_count :
    counting.Lands Counter.cache 0 ((start Counter.caches {}).run lookedBefore) ∧
    (((counting.done ((start Counter.caches {}).run lookedBefore)).run [Counter.opens 2]).reply? 2
      (.selectList "look" .null .unbounded) = some (.ok (.rows (Counter.rowsOf 1)))) ∧
    ∃ rows, Call.Shows (.selectList "look" .null .unbounded) rows (.rows (Counter.rowsOf 1)) ∧
      (Fresh 0 rows (ledger (((counting.done ((start Counter.caches {}).run lookedBefore)).run
          [Counter.opens 2]).step (.call 2 (.selectList "look" .null .unbounded)))) ∨
        ∃ i key c', i ≠ counting.session ∧ c'.Publishes ∧ .call i c' ∈ [Counter.opens 2] ∧
          (counting.done ((start Counter.caches {}).run lookedBefore)).HeldBy i (key, rows)) := by
  have hjoins : ∀ e ∈ lookedBefore ++ counting.between ++ [Counter.opens 2],
      Joins Counter.cache e := by
    intro e he
    simp only [lookedBefore, counting, List.cons_append, List.nil_append, List.mem_cons,
      List.not_mem_nil, or_false] at he
    rcases he with rfl | rfl | rfl | rfl | rfl | rfl
    exacts [counter_joins 0, trivial, trivial, counter_joins 1, trivial, counter_joins 2]
  have hlands : counting.Lands Counter.cache 0 ((start Counter.caches {}).run lookedBefore) :=
    { statement := ⟨_, Counter.count, rfl, by with_unfolding_all rfl, rfl, rfl⟩
      made := ⟨by with_unfolding_all decide, by with_unfolding_all decide⟩
      rollbacks := by
        rintro done e hp force reply rfl
        have hm := hp.subset (List.mem_append_right _ List.mem_cons_self)
        simp [counting, Counter.looks] at hm
      pending := by with_unfolding_all decide
      succeeds := by with_unfolding_all rfl
      committed := by with_unfolding_all decide }
  have hreply : ((counting.done ((start Counter.caches {}).run lookedBefore)).run
      [Counter.opens 2]).reply? 2 (.selectList "look" .null .unbounded) =
        some (.ok (.rows (Counter.rowsOf 1))) := by
    with_unfolding_all rfl
  exact ⟨hlands, hreply, selects_show_committed_updates_or_late_results _ _ _ _ _ _ hjoins hlands
    (by with_unfolding_all decide) trivial hreply⟩

/-- One session has looked before another one counts. -/
def overtaken : System Counter :=
  (start Counter.caches {}).run
    [Counter.opens 0, Counter.looks 0, Counter.opens 1, Counter.counts 1]

/-- The session that has looked publishes what it saw after the commit of the other one. -/
def publishedLate : System Counter :=
  (overtaken.step (Counter.commits 1)).run [Counter.commits 0, Counter.opens 2]

/-- What one session saw is in the cache. Another session counts with a driver that cannot roll
back, and tries to. -/
def unforgotten : System Counter :=
  (start Counter.caches {}).run [Counter.opens 0, Counter.looks 0, Counter.commits 0,
    .opens Counter.configuration
      { Counter.driver 1 with rollback := throw (.other "no rollback") } none .simple,
    Counter.counts 1, .call 1 (.rollback false)]

def committedAnyway : System Counter :=
  (unforgotten.step (Counter.commits 1)).run [Counter.opens 2]

/-- A session that is opened after a count is committed sees what was read before it: where
another session publishes after the commit, and where a rollback has failed before the commit. -/
theorem old_results_outlive_commits :
    (overtaken.reply? 1 (.commit false) = some (.ok .done) ∧ 0 ∉ (ledger overtaken).committed ∧
      0 ∈ (ledger (overtaken.step (Counter.commits 1))).committed ∧
      publishedLate.reply? 2 (.selectList "look" .null .unbounded) =
        some (.ok (.rows (Counter.rowsOf 0))) ∧
      ¬ Fresh 0 (Counter.rowsOf 0) (ledger (publishedLate.step (Counter.looks 2)))) ∧
    (unforgotten.reply? 1 (.commit false) = some (.ok .done) ∧
      0 ∉ (ledger unforgotten).committed ∧
      0 ∈ (ledger (unforgotten.step (Counter.commits 1))).committed ∧
      committedAnyway.reply? 2 (.selectList "look" .null .unbounded) =
        some (.ok (.rows (Counter.rowsOf 0))) ∧
      ¬ Fresh 0 (Counter.rowsOf 0) (ledger (committedAnyway.step (Counter.looks 2)))) := by
  have hfresh {l : Ledger} (h : ∀ read ∈ l.reads, read.committed = [] ∧ read.account.executed = [])
      (rows : ResultSet) : ¬ Fresh 0 rows l := by
    rintro ⟨read, hm, -, hs⟩
    obtain ⟨hc, he⟩ := h read hm
    simp [Read.Sees, hc, he] at hs
  refine ⟨⟨by with_unfolding_all rfl, by with_unfolding_all decide, by with_unfolding_all decide,
    by with_unfolding_all rfl, hfresh ?_ _⟩, by with_unfolding_all rfl,
    by with_unfolding_all decide, by with_unfolding_all decide, by with_unfolding_all rfl,
    hfresh ?_ _⟩
  all_goals with_unfolding_all decide

end System

end MappedSql
