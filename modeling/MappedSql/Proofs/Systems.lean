import Mathlib.Data.List.Induction
import MappedSql.Proofs.SessionCalls

/-!
# Several sessions

Sessions share a database and the caches, and call in any order. They are opened with drivers
and configurations of their own. The state of all of them, what one event makes of it and what
holds after every run.
-/

namespace MappedSql

open Ledger

structure System (σ : Type) where
  sessions : List (Session (Ledgered σ)) := []
  world : World (Ledgered σ)

inductive Event (σ : Type)
  | opens (c : Configuration) (d : Driver σ) (timeout : Option Timeout) (type : ExecutorType)
  | call (j : Nat) (c : Call)

variable {σ : Type} {j : Nat} {U : CacheRef → Prop}

instance : Booked (System σ) := ⟨fun s => ledger s.world⟩

def Event.Opens (P : Configuration → Prop) : Event σ → Prop
  | .opens c _ _ _ => P c
  | .call _ _ => True

namespace System

def start (caches : Caches) (state : σ) : System σ where
  world := { database := { state }, caches }

/-- A call of a session that was never opened does nothing. -/
def step (s : System σ) : Event σ → System σ
  | .opens c d timeout type =>
    let t : Transaction (Ledgered σ) := { driver := d.ledgered s.sessions.length, timeout }
    { s with sessions := s.sessions ++ [.start c t type] }
  | .call j c =>
    match s.sessions[j]? with
    | none => s
    | some session =>
      let (session, world) := (c.perform.outcome (session, s.world)).2
      { sessions := s.sessions.set j session, world }

def reply? (s : System σ) (j : Nat) (c : Call) : Option (Except Error Reply) :=
  s.sessions[j]?.map fun session => (c.perform.outcome (session, s.world)).1

def run (s : System σ) (events : List (Event σ)) : System σ :=
  events.foldl step s

variable {s s' : System σ} {events : List (Event σ)} {e : Event σ}

theorem run_concat : s.run (events ++ [e]) = (s.run events).step e := by
  simp [run]

theorem run_induction {I : List (Event σ) → System σ → Prop} (h : I [] s)
    (hstep : ∀ before e, before ++ [e] <+: events → I before (s.run before) →
      I (before ++ [e]) ((s.run before).step e)) : I events (s.run events) := by
  have hprefix (before : List (Event σ)) (hb : before <+: events) : I before (s.run before) := by
    induction before using List.reverseRecOn with
    | nil => exact h
    | append_singleton before e ih =>
      rw [run_concat]
      exact hstep before e hb (ih ((List.prefix_append before [e]).trans hb))
  exact hprefix events (List.prefix_refl _)

-- ---------------------------------------------------------------------------
-- What holds between events
-- ---------------------------------------------------------------------------

/-- Every session is sound, and sessions that are still to be opened have no updates. -/
structure Sound (s : System σ) : Prop where
  sessions : ∀ j session, s.sessions[j]? = some session → Session.Sound j (session, s.world)
  unopened : ∀ j, s.sessions.length ≤ j → (ledger s).accounts j = {}
  bounded : (ledger s).Bounded

def Each (P : Session (Ledgered σ) → Prop) (s : System σ) : Prop :=
  ∀ (j : Nat) (session : Session (Ledgered σ)), s.sessions[j]? = some session → P session

def Uses (U : CacheRef → Prop) (s : System σ) : Prop :=
  s.Each (·.configuration.Uses U)

theorem start_sound (caches : Caches) (state : σ) : (start caches state).Sound where
  sessions _ _ hj := by simp [start] at hj
  unopened _ _ := rfl
  bounded := ⟨fun _ _ hn => by simp [start, ledger, Account.Holds] at hn, nofun, nofun⟩

theorem start_holds (c : Configuration) (t : Transaction σ) (type : ExecutorType)
    (entry : CacheKey × ResultSet) : ¬ (Session.start c t type).Holds entry := by
  unfold Session.start Executor.start
  cases c.cachesEnabled <;> rintro (h | ⟨os, ho, o, hm, -⟩)
  · simp [Worker.start] at h
  · cases ho
  · simp [Executor.caching, Worker.start] at h
  · cases ho
    exact List.not_mem_nil hm

theorem start_worker (c : Configuration) (t : Transaction σ) (type : ExecutorType) :
    (Session.start c t type).executor.worker = .start c t type :=
  Executor.start_worker c t type

theorem start_session_sound {w : World (Ledgered σ)} (ha : (ledger w).accounts j = {})
    (c : Configuration) (d : Driver σ) (timeout : Option Timeout) (type : ExecutorType) :
    Session.Sound j (Session.start c { driver := d.ledgered j, timeout } type, w) := by
  have hw := start_worker c { driver := d.ledgered j, timeout } type
  have hq : (Strategy.ofType type).queue = [] := by cases type <;> rfl
  refine ⟨⟨d, by rw [hw]; rfl⟩, ?_, fun _ _ => ⟨?_, ?_⟩, fun _ => start_holds _ _ _⟩
  · change ((ledger w).accounts j).Tidy _
    rw [ha]
    exact fun _ h => absurd rfl h
  · change (Session.start ..).executor.worker.strategy.queue = []
    rw [hw]
    exact hq
  · change ((ledger w).accounts j).executed = []
    rw [ha]

inductive Step (U : CacheRef → Prop) (s : System σ) : Event σ → System σ → Prop
  | opens (c : Configuration) (d : Driver σ) (timeout : Option Timeout) (type : ExecutorType) :
    Step U s (.opens c d timeout type) { s with sessions := s.sessions ++
      [.start c { driver := d.ledgered s.sessions.length, timeout } type] }
  | unopened {j : Nat} (c : Call) (hj : s.sessions[j]? = none) : Step U s (.call j c) s
  | call {j : Nat} (c : Call) {session session' : Session (Ledgered σ)}
    {world : World (Ledgered σ)} {r : Except Error Reply} (hj : s.sessions[j]? = some session)
    (hr : s.reply? j c = some r)
    (h : Call.Effect j U c r (session, s.world) (session', world)) :
    Step U s (.call j c) { sessions := s.sessions.set j session', world }

theorem step_call {session : Session (Ledgered σ)} (hj : s.sessions[j]? = some session) {c : Call}
    {Q : Reply → Session (Ledgered σ) × World (Ledgered σ) → Prop}
    {E : Error → Session (Ledgered σ) × World (Ledgered σ) → Prop}
    (h : Triple c.perform (session, s.world) Q E) :
    ∃ session' world r, s.step (.call j c) = { sessions := s.sessions.set j session', world } ∧
      s.reply? j c = some r ∧ (∀ reply, r = .ok reply → Q reply (session', world)) ∧
      (∀ e, r = .error e → E e (session', world)) := by
  have hstep : s.step (.call j c) =
      { sessions := s.sessions.set j (c.perform.outcome (session, s.world)).2.1
        world := (c.perform.outcome (session, s.world)).2.2 } := by
    simp [step, hj]
  have hreply : s.reply? j c = some (c.perform.outcome (session, s.world)).1 := by
    simp [reply?, hj]
  refine ⟨_, _, _, hstep, hreply, fun reply hr => ?_, fun e hr => ?_⟩
  all_goals
    unfold Triple at h
    split at h <;> rename_i ho <;> rw [ho] at hr ⊢ <;> cases hr
    exact h

theorem step_cases (hs : s.Sound) (hU : s.Uses U) (e : Event σ) : Step U s e (s.step e) := by
  cases e with
  | opens c d timeout type => exact .opens c d timeout type
  | call j c =>
    cases hj : s.sessions[j]? with
    | none =>
      have he : s.step (.call j c) = s := by simp [step, hj]
      rw [he]
      exact .unopened c hj
    | some session =>
      obtain ⟨d, hd⟩ := (hs.sessions j session hj).driver
      obtain ⟨session', world, r, hstep, hr, hok, herror⟩ :=
        step_call hj (Call.perform_ok hd (hU j session hj) c)
      rw [hstep]
      refine .call c hj hr ?_
      cases r with
      | ok reply => exact hok reply rfl
      | error e => exact herror e rfl

theorem get_set {sessions : List (Session (Ledgered σ))}
    {session session' other : Session (Ledgered σ)} {i : Nat} (hj : sessions[j]? = some session)
    (hi : (sessions.set j session')[i]? = some other) :
    i = j ∧ other = session' ∨ i ≠ j ∧ sessions[i]? = some other := by
  by_cases h : i = j
  · subst h
    rw [List.getElem?_set_self (List.getElem?_eq_some_iff.mp hj).1] at hi
    exact .inl ⟨rfl, (Option.some.inj hi).symm⟩
  · rw [List.getElem?_set_ne (Ne.symm h)] at hi
    exact .inr ⟨h, hi⟩

theorem get_concat {sessions : List (Session (Ledgered σ))} {session other : Session (Ledgered σ)}
    {i : Nat} (hi : (sessions ++ [session])[i]? = some other) :
    sessions[i]? = some other ∨ i = sessions.length ∧ other = session := by
  rcases Nat.lt_or_ge i sessions.length with h | h
  · rw [List.getElem?_append_left h] at hi
    exact .inl hi
  · rw [List.getElem?_append_right h, List.getElem?_singleton] at hi
    split at hi
    · exact .inr ⟨by omega, (Option.some.inj hi).symm⟩
    · cases hi

theorem Step.sound (hs : s.Sound) (h : Step U s e s') : s'.Sound := by
  cases h with
  | opens c d timeout type =>
    refine ⟨fun i other hi => ?_, fun i hi => hs.unopened i ?_, hs.bounded⟩
    · rcases get_concat hi with hi | ⟨rfl, rfl⟩
      · exact hs.sessions i other hi
      · exact start_session_sound (hs.unopened _ (Nat.le_refl _)) c d timeout type
    · rw [List.length_append] at hi
      exact Nat.le_of_add_right_le hi
  | unopened c hj => exact hs
  | @call j c session session' world r hj hr h =>
    have ha := (h.moves (hs.sessions j session hj)).acts
    refine ⟨fun i other hi => ?_, fun i hi => ?_, ha.bounded hs.bounded⟩
    · rcases get_set hj hi with ⟨rfl, rfl⟩ | ⟨hne, hi⟩
      · exact h.sound (hs.sessions i session hj)
      · exact (hs.sessions i other hi).frame (ha.others i hne)
    · rw [List.length_set] at hi
      have hne : i ≠ j := by
        rintro rfl
        exact Nat.not_le_of_lt (List.getElem?_eq_some_iff.mp hj).1 hi
      exact (ha.others i hne).trans (hs.unopened i hi)

theorem Step.each {P : Session (Ledgered σ) → Prop} (hs : s.Sound)
    (hopens : ∀ c d timeout type, e = .opens c d timeout type →
      P (.start c { driver := d.ledgered s.sessions.length, timeout } type))
    (hcall : ∀ j c r z z', Call.Moves j U c r z z' → P z.1 → P z'.1) (h : Step U s e s')
    (hP : s.Each P) : s'.Each P := by
  cases h with
  | opens c d timeout type =>
    intro i other hi
    rcases get_concat hi with hi | ⟨rfl, rfl⟩
    · exact hP i other hi
    · exact hopens c d timeout type rfl
  | unopened c hj => exact hP
  | @call j c session session' world r hj hr h =>
    intro i other hi
    rcases get_set hj hi with ⟨rfl, rfl⟩ | ⟨-, hi⟩
    · exact hcall i c r _ _ (h.moves (hs.sessions i session hj)) (hP i session hj)
    · exact hP i other hi

def Held (H : Nat → CacheKey × ResultSet → Ledger → Prop) (s : System σ) : Prop :=
  ∀ (j : Nat) (session : Session (Ledgered σ)), s.sessions[j]? = some session →
    ∀ entry, session.Holds entry → H j entry (ledger s)

/-- A property of the results that are held is kept when it outlives what sessions do, and
results that are fetched have it. -/
theorem Step.held {H : Nat → CacheKey × ResultSet → Ledger → Prop} (hs : s.Sound)
    (hself : ∀ j entry l', H j entry (ledger s) → Works j (ledger s) l' → H j entry l')
    (hother : ∀ i j entry l', i ≠ j → H i entry (ledger s) → Acts j (ledger s) l' →
      H i entry l')
    (hfetched : ∀ j entry l', Fetched j (ledger s) entry.2 l' → H j entry l')
    (h : Step U s e s') (hh : s.Held H) : s'.Held H := by
  cases h with
  | opens c d timeout type =>
    intro i other hi entry he
    rcases get_concat hi with hi | ⟨rfl, rfl⟩
    · exact hh i other hi entry he
    · exact absurd he (start_holds _ _ _ entry)
  | unopened c hj => exact hh
  | @call j c session session' world r hj hr h =>
    have hm := h.moves (hs.sessions j session hj)
    intro i other hi entry he
    rcases get_set hj hi with ⟨rfl, rfl⟩ | ⟨hne, hi⟩
    · rcases hm.held entry he with ⟨he, hw⟩ | hf
      · exact hself i entry _ (hh i session hj entry he) hw
      · exact hfetched i entry _ hf
    · exact hother i j entry _ hne (hh i other hi entry he) hm.acts

end System

-- ---------------------------------------------------------------------------
-- A database of one number
-- ---------------------------------------------------------------------------

/-- A number that sessions count up. A session sees what is committed and what it has counted
itself. -/
structure Counter where
  committed : Nat := 0
  pending : Nat → Nat := fun _ => 0

namespace Counter

def rowsOf (n : Nat) : ResultSet :=
  .ofValues ["n"] [[.int (Int64.ofNat n)]]

def driver (j : Nat) : Driver Counter where
  prepare _ _ := return ⟨0⟩
  bind _ _ := return
  addBatch _ := throw (.other "no batches")
  executeUpdate _ := do
    modify fun c => { c with pending := Function.update c.pending j (c.pending j + 1) }
    return 1
  executeBatch _ := throw (.other "no batches")
  executeQuery _ := do
    let c ← get
    return rowsOf (c.committed + c.pending j)
  close _ := return
  commit := modify fun c =>
    { committed := c.committed + c.pending j, pending := Function.update c.pending j 0 }
  rollback := modify fun c => { c with pending := Function.update c.pending j 0 }

def cache : CacheRef where
  id := "counter"
  index := 0

def caches : Caches where
  caches := [.store "counter" []]

def look : Statement where
  id := "look"
  template := .compiled { sql := "select n from counter", parameters := [] }
  command := .select
  cache := some cache

def count : Statement where
  id := "count"
  template := .compiled { sql := "update counter set n = n + 1", parameters := [] }
  command := .update
  cache := some cache

def configuration : Configuration where
  caches := [("counter", cache)]
  statements := [("look", look), ("count", count)]

def opens (j : Nat) : Event Counter :=
  .opens configuration (driver j) none .simple

def looks (j : Nat) : Event Counter :=
  .call j (.selectList "look" .null .unbounded)

def counts (j : Nat) : Event Counter :=
  .call j (.update "count" .null)

def commits (j : Nat) : Event Counter :=
  .call j (.commit false)

end Counter

end MappedSql
