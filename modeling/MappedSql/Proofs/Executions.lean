import MappedSql.Proofs.CallRules
import MappedSql.Proofs.Ledger

/-!
# What executions do to a ledger

For each way in which statements reach the driver: what an update, a query, a flush and a
discard make of the ledger, whether they succeed or fail. Updates wait only on the handles of
the groups that are queued; so none waits any longer once a flush or a discard is over, and a
query sees all updates that its session has handed over and not lost.
-/

namespace MappedSql

open Ledger

variable {σ α : Type} {j : Nat} {R : Ledger → Ledger → Prop}

instance [Booked σ] : Booked (Channel σ) := ⟨fun c => ledger c.database⟩

/-- A query that has rows, somewhere on the way between two ledgers. -/
def Reading (j : Nat) (l : Ledger) (rows : ResultSet) (l' : Ledger) : Prop :=
  ∃ l₀, Reads j l l₀ ∧ Reads j (l₀.read j rows) l'

theorem Reading.reads {l l' : Ledger} {rows : ResultSet} (h : Reading j l rows l') :
    Reads j l l' := by
  obtain ⟨l₀, h₀, h₁⟩ := h
  exact trans_of _ h₀ (trans_of _ (read_reads rows) h₁)

theorem Reading.trans {l l' l'' : Ledger} {rows : ResultSet} (h : Reading j l rows l')
    (h' : Reads j l' l'') : Reading j l rows l'' := by
  obtain ⟨l₀, h₀, h₁⟩ := h
  exact ⟨l₀, h₀, trans_of _ h₁ h'⟩

theorem Reading.of_reads {l l' l'' : Ledger} {rows : ResultSet} (h : Reads j l l')
    (h' : Reading j l' rows l'') : Reading j l rows l'' := by
  obtain ⟨l₀, h₀, h₁⟩ := h'
  exact ⟨l₀, trans_of _ h h₀, h₁⟩

-- ---------------------------------------------------------------------------
-- Handles
-- ---------------------------------------------------------------------------

namespace Channel

theorem drive_respects [Booked σ] {a : Action σ α} (h : a.Respects (Over R)) :
    (drive a).Respects (Over R) :=
  h.within fun _ _ => id

variable {d : Driver σ}

theorem release_ok (d : Driver σ) (h : Handle) (c : Channel (Ledgered σ))
    {E : Error → Channel (Ledgered σ) → Prop} :
    Triple (release (d.ledgered j) h) c (fun _ c' => ledger c' = (ledger c).withdraw j h) E :=
  rfl

theorem release_reads (d : Driver σ) (h : Handle) :
    (release (d.ledgered j) h).Respects (Over (Reads j)) :=
  fun _ => withdraw_reads h

theorem record_respects [Booked σ] [IsPreorder Ledger R] (event : KeyEvent) :
    (record event : Action (Channel σ) Nat).Respects (Over R) :=
  .bind (.modify fun c => refl_of R (ledger c)) fun _ => .bind .get fun _ => .pure _

theorem withHandle_respects [IsPreorder Ledger R] (hR : ∀ l l', Reads j l l' → R l l')
    {h : Handle} {work : Action (Channel (Ledgered σ)) α} (hw : work.Respects (Over R)) :
    (withHandle (d.ledgered j) h work).Respects (Over R) := by
  refine .bind hw.attempt fun _ => .bind ?_ fun _ => .bind (.ofExcept _) fun _ =>
    .bind (.ofExcept _) fun _ => .pure _
  exact (drive_respects (d.close_reads h)).attempt.mono fun _ _ => hR _ _

/-- What the work on a handle brings about is kept when the handle is closed. -/
theorem withHandle_ok {h : Handle} {work : Action (Channel (Ledgered σ)) α}
    {c : Channel (Ledgered σ)} {Q : α → Ledger → Prop} {E : Ledger → Prop}
    (hQ : ∀ value l l', Q value l → Reads j l l' → Q value l' ∧ E l')
    (hE : ∀ l l', E l → Reads j l l' → E l')
    (hw : Triple work c (fun value c' => Q value (ledger c')) (fun _ c' => E (ledger c'))) :
    Triple (withHandle (d.ledgered j) h work) c (fun value c' => Q value (ledger c'))
      (fun _ c' => E (ledger c')) := by
  have hclose := drive_respects (d.close_reads (j := j) h)
  refine .bind_attempt hw (fun value c₁ hq => ?_) fun e c₁ he => ?_
  · refine .bind (hclose.attempt_triple c₁) fun closed c₂ h₂ => ?_
    obtain ⟨hq', he⟩ := hQ value _ _ hq h₂
    exact .bind_ofExcept (r := .ok value) (fun _ hv => .bind_ofExcept (fun _ _ =>
      .pure (Except.ok.inj hv ▸ hq')) fun _ _ => he) nofun
  · exact .bind (hclose.attempt_triple c₁) fun _ _ h₂ => .throw (hE _ _ he h₂)

end Channel

-- ---------------------------------------------------------------------------
-- Single executions
-- ---------------------------------------------------------------------------

namespace Execution

variable {d : Driver σ} {e : Execution}

theorem values_ok {β : Type} (e : Execution) {s : β × Channel σ}
    {Q : List Value → β × Channel σ → Prop} {E : Error → β × Channel σ → Prop}
    (hQ : ∀ values, Q values s) (hE : ∀ cause, E cause s) :
    Triple (e.values.onSecond : Action (β × Channel σ) (List Value)) s Q E := by
  obtain ⟨held, c⟩ := s
  unfold values
  cases e.bound.values e.handlers with
  | ok values => exact hQ values
  | error cause => exact hE cause

theorem prepare_reads (e : Execution) (d : Driver σ) :
    (e.prepare (d.ledgered j)).Respects (Over (Reads j)) :=
  Channel.drive_respects (d.prepare_reads _ _)

theorem updateOn_runs (e : Execution) (d : Driver σ) (h : Handle) (values : List Value) :
    (e.updateOn (d.ledgered j) h values).Respects (Over (Runs j)) := by
  refine .bind (Channel.drive_respects ?_) fun _ =>
    .bind (Channel.drive_respects (d.executeUpdate_runs h)) fun _ =>
    .bind (Channel.generateKeys_respects Channel.record_respects _ _) fun _ => .pure _
  exact (d.bind_reads h values).mono fun _ _ => Reads.toRuns

theorem updateOnce_runs (e : Execution) (d : Driver σ) :
    (e.updateOnce (d.ledgered j)).Respects (Over (Runs j)) :=
  .bind (.ofExcept _) fun values =>
    .bind ((e.prepare_reads d).mono fun _ _ => Reads.toRuns) fun h =>
    Channel.withHandle_respects (fun _ _ => Reads.toRuns) (e.updateOn_runs d h values)

theorem queryOn_ok (d : Driver σ) (h : Handle) (values : List Value)
    (c : Channel (Ledgered σ)) :
    Triple (queryOn (d.ledgered j) h values) c
      (fun rows c' => Reading j (ledger c) rows (ledger c')) (fun _ => Over (Reads j) c) := by
  refine .bind ((Channel.drive_respects (d.bind_reads h values)).triple c) fun _ c' hc => ?_
  refine .within ((noted_ok _ _ _).mono (fun rows s' hs => ⟨_, hc, ?_⟩) fun e s' hs => ?_)
  · change Reads j _ (ledger s')
    rw [hs]
    exact refl_of (Reads j) _
  · change Reads j _ (ledger s')
    rw [hs]
    exact hc

theorem queryOnce_ok (e : Execution) (d : Driver σ) (c : Channel (Ledgered σ)) :
    Triple (e.queryOnce (d.ledgered j)) c
      (fun rows c' => Reading j (ledger c) rows (ledger c')) (fun _ => Over (Reads j) c) := by
  have hvalues : (e.values : Action (Channel (Ledgered σ)) _).Respects (Over (Reads j)) :=
    .ofExcept _
  refine .bind (hvalues.triple c) fun values c₁ h₁ => ?_
  refine .bind ((e.prepare_reads d).after h₁) fun h c₂ h₂ => ?_
  refine Channel.withHandle_ok (Q := fun rows => Reading j (ledger c) rows)
    (E := Reads j (ledger c)) (fun rows l l' hr hl => ⟨hr.trans hl, trans_of _ hr.reads hl⟩)
    (fun l l' => trans_of _) ?_
  exact (queryOn_ok d h values c₂).mono (fun _ _ => .of_reads h₂) fun _ _ => trans_of _ h₂

end Execution

-- ---------------------------------------------------------------------------
-- Statement pools
-- ---------------------------------------------------------------------------

namespace StatementPool

variable {d : Driver σ} {e : Execution}

theorem handleFor_reads (e : Execution) (d : Driver σ) :
    (handleFor e (d.ledgered j)).Respects (Over (Reads j)) := by
  refine .bind .get fun s => ?_
  cases Keyed.get? s.1 e.bound.sql with
  | some h => exact .pure h
  | none =>
    exact .bind (onSecond_respects (e.prepare_reads d)) fun h =>
      .bind (.modify fun t => refl_of (Reads j) (ledger t)) fun _ => .pure h

theorem drop_reads (d : Driver σ) (sql : String) :
    (drop (d.ledgered j) sql).Respects (Over (Reads j)) := by
  refine .bind .get fun s => ?_
  cases Keyed.get? s.1 sql with
  | none => exact .pure ()
  | some h =>
    exact .bind (.modify fun t => refl_of (Reads j) (ledger t)) fun _ =>
      onSecond_respects (Channel.release_reads d h)

theorem update_runs (e : Execution) (d : Driver σ) :
    (update e (d.ledgered j)).Respects (Over (Runs j)) := by
  refine .bind (.ofExcept _ |> onSecond_respects) fun values =>
    .bind ((handleFor_reads e d).mono fun _ _ => Reads.toRuns) fun h =>
    .bind (onSecond_respects (e.updateOn_runs d h values)).attempt fun r => ?_
  cases r with
  | ok value => exact .pure value
  | error cause =>
    exact .bind ((drop_reads d _).mono fun _ _ => Reads.toRuns) fun _ => .throw cause

theorem query_ok (e : Execution) (d : Driver σ) (s : StatementPool × Channel (Ledgered σ)) :
    Triple (query e (d.ledgered j)) s
      (fun rows s' => Reading j (ledger s) rows (ledger s')) (fun _ => Over (Reads j) s) := by
  have hsame : Over (Reads j) s s := refl_of _ s
  refine .bind (P := fun _ => Over (Reads j) s) (e.values_ok (fun _ => hsame) fun _ => hsame)
    fun values s₁ h₁ => ?_
  refine .bind ((handleFor_reads e d).after h₁) fun h s₂ h₂ => ?_
  refine .bind_attempt (P := fun rows s' => Reading j (ledger s) rows (ledger s'))
    (E := fun _ => Over (Reads j) s) (.onSecond ?_) (fun _ _ h₃ => .pure h₃) fun _ _ h₃ => ?_
  · exact (Execution.queryOn_ok d h values s₂.2).mono (fun _ _ => .of_reads h₂)
      fun _ _ h => trans_of (Reads j) h₂ h
  · exact .bind ((drop_reads d _).after h₃) fun _ _ h => .throw h

theorem releaseAll_reads (d : Driver σ) (handles : List Handle) :
    (releaseAll (d.ledgered j) handles).Respects (Over fun l l' => Reads j l l' ∧
      ∀ h ∈ handles, (l'.accounts j).waiting h = []) := by
  induction handles with
  | nil => exact fun c => ⟨refl_of (Reads j) (ledger c), by simp⟩
  | cons h rest ih =>
    have hstep (c c₁ c' : Channel (Ledgered σ)) (h₁ : ledger c₁ = (ledger c).withdraw j h)
        (h' : Reads j (ledger c₁) (ledger c') ∧
          ∀ h ∈ rest, ((ledger c').accounts j).waiting h = []) :
        Reads j (ledger c) (ledger c') ∧
          ∀ other ∈ h :: rest, ((ledger c').accounts j).waiting other = [] := by
      refine ⟨trans_of (Reads j) (h₁ ▸ withdraw_reads h) h'.1, List.forall_mem_cons.mpr ⟨?_, h'.2⟩⟩
      have hw : ((ledger c₁).accounts j).waiting h = [] := by simp [h₁]
      exact (h'.1.drops h).elim (·.trans hw) id
    refine .of_triple fun c => .bind (Channel.release_ok d h c) fun _ c₁ h₁ => ?_
    exact (ih.triple c₁).mono (fun _ c' => hstep c c₁ c' h₁) fun _ c' => hstep c c₁ c' h₁

theorem flush_reads (d : Driver σ) : (flush (d.ledgered j)).Respects (Over (Reads j)) :=
  .bind .get fun _ => .bind (.modify fun t => refl_of (Reads j) (ledger t)) fun _ =>
    onSecond_respects ((releaseAll_reads d _).mono fun _ _ h => h.1)

end StatementPool

-- ---------------------------------------------------------------------------
-- Batches
-- ---------------------------------------------------------------------------

/-- Updates wait only on the handles of groups that are queued. -/
def Account.Tidy (a : Account) (queue : BatchQueue) : Prop :=
  ∀ h, a.waiting h ≠ [] → h ∈ queue.map (·.handle)

theorem Account.Tidy.drops {a a' : Account} {queue : BatchQueue} (h : a.Tidy queue)
    (hd : a.Drops a') : a'.Tidy queue := by
  intro handle hw
  rcases hd handle with he | he
  · exact h handle (he ▸ hw)
  · exact absurd he hw

theorem Account.tidy_nil {a : Account} : a.Tidy [] ↔ a.Settled := by
  simp [Account.Tidy, Account.Settled]

theorem Account.Tidy.settled {a a' : Account} {queue : BatchQueue} (h : a.Tidy queue)
    (hd : a.Drops a') (he : ∀ g ∈ queue.map (·.handle), a'.waiting g = []) : a'.Settled := by
  intro handle
  by_contra hw
  exact hw (he handle (h.drops hd handle hw))

def Submits (j : Nat) (h : Handle) (l l' : Ledger) : Prop :=
  Works j l l' ∧ ∀ other, other ≠ h →
    (l'.accounts j).waiting other = (l.accounts j).waiting other ∨
      (l'.accounts j).waiting other = []

theorem Submits.after {h : Handle} {l l' l'' : Ledger} (hr : Reads j l l')
    (hs : Submits j h l' l'') : Submits j h l l'' := by
  refine ⟨trans_of _ hr.toWorks hs.1, fun other ho => ?_⟩
  rcases hs.2 other ho with he | he
  · rw [he]
    exact hr.drops other
  · exact .inr he

theorem Account.Tidy.submits {h : Handle} {l l' : Ledger} {queue queue' : BatchQueue}
    (ht : (l.accounts j).Tidy queue) (hs : Submits j h l l')
    (hq : queue.map (·.handle) ⊆ queue'.map (·.handle)) (hh : h ∈ queue'.map (·.handle)) :
    (l'.accounts j).Tidy queue' := by
  intro other hw
  by_cases he : other = h
  · exact he ▸ hh
  · rcases hs.2 other he with hs | hs
    · exact hq (ht other (hs ▸ hw))
    · exact absurd hs hw

namespace BatchGroup

variable {d : Driver σ}

theorem run_ok (g : BatchGroup) (d : Driver σ) (c : Channel (Ledgered σ))
    {E : Error → Channel (Ledgered σ) → Prop} :
    Triple (g.run (d.ledgered j)) c (fun _ => Over (Runs j) c) E := by
  refine .bind ((Channel.drive_respects (d.executeBatch_runs g.handle)).attempt_triple c)
    fun r c₁ h₁ => ?_
  cases r with
  | error cause => exact .pure h₁
  | ok counts =>
    have hkeys : (g.generateKeys g.result.arguments : Action (Channel (Ledgered σ)) _).Respects
        (Over (Runs j)) := g.requestKeys_respects Channel.record_respects _
    refine .bind (hkeys.attempt_triple c₁) fun r c₂ h₂ => ?_
    cases r with
    | error cause => exact .pure (trans_of (Runs j) h₁ h₂)
    | ok _ => exact .pure (trans_of (Runs j) h₁ h₂)

end BatchGroup

namespace BatchQueue

variable {d : Driver σ} {e : Execution}

theorem addItem_ok (d : Driver σ) (h : Handle) (values : List Value) (c : Channel (Ledgered σ)) :
    Triple (addItem (d.ledgered j) h values) c
      (fun _ c' => Submits j h (ledger c) (ledger c')) (fun _ => Over (Reads j) c) := by
  refine .bind ((Channel.drive_respects (d.bind_reads h values)).triple c) fun _ c₁ h₁ => ?_
  refine .within ((noted_ok _ _ _).mono (fun _ s' hs => ?_) fun _ s' hs => ?_)
  · refine .after h₁ ?_
    change Submits j h (ledger c₁) (ledger s')
    rw [hs]
    exact ⟨submit_works h, fun other ho => .inl (waiting_submit_of_ne ho)⟩
  · change Reads j (ledger c) (ledger s')
    rw [hs]
    exact h₁

theorem openGroup_ok (e : Execution) (d : Driver σ) (values : List Value)
    (c : Channel (Ledgered σ)) :
    Triple (openGroup e (d.ledgered j) values) c
      (fun g c' => Submits j g.handle (ledger c) (ledger c')) (fun _ => Over (Reads j) c) := by
  refine .bind ((e.prepare_reads d).triple c) fun h c₁ h₁ => ?_
  refine .bind_attempt ((addItem_ok d h values c₁).mono (fun _ _ => .after h₁)
    fun _ _ => trans_of (Reads j) h₁) (fun _ _ h₂ => .pure h₂) fun _ _ h₂ => ?_
  exact .bind ((Channel.release_reads d h).after h₂) fun _ _ h => .throw h

theorem update_works (e : Execution) (d : Driver σ) :
    (update e (d.ledgered j)).Respects fun s s' => Works j (ledger s) (ledger s') ∧
      (((ledger s).accounts j).Tidy s.1 → ((ledger s').accounts j).Tidy s'.1) := by
  have hreads (queue : BatchQueue) {c c' : Channel (Ledgered σ)}
      (h : Reads j (ledger c) (ledger c')) : Works j (ledger c) (ledger c') ∧
        (((ledger c).accounts j).Tidy queue → ((ledger c').accounts j).Tidy queue) :=
    ⟨h.toWorks, fun ht => ht.drops h.drops⟩
  refine .of_triple fun ⟨queue, c⟩ => ?_
  have hsame := hreads queue (refl_of (Reads j) (ledger c))
  refine .bind (P := fun _ s => s = (queue, c)) (e.values_ok (fun _ => rfl) fun _ => hsame) ?_
  rintro values _ rfl
  refine .bind_get ?_
  dsimp only
  cases hg : queue.getLast?.filter (·.continuedBy e) with
  | some g =>
    obtain ⟨hl, -⟩ := Option.filter_eq_some_iff.mp hg
    obtain ⟨rest, rfl⟩ : ∃ rest, queue = rest ++ [g] := List.getLast?_eq_some_iff.mp hl
    refine .bind_onSecond (addItem_ok d g.handle values c) (fun _ _ => hreads _) fun _ c₁ h₁ => ?_
    refine .bind_modify (.pure ⟨h₁.1, fun ht => ?_⟩)
    exact ht.submits h₁ (by simp [BatchGroup.push]) (by simp [BatchGroup.push])
  | none =>
    refine .bind_onSecond (openGroup_ok e d values c) (fun _ _ => hreads _) fun g c₁ h₁ => ?_
    exact .bind_modify (.pure ⟨h₁.1, fun ht => ht.submits h₁ (by simp) (by simp)⟩)

theorem runAll_runs (d : Driver σ) (completed : List BatchResult) (queue : BatchQueue) :
    (runAll (d.ledgered j) completed queue).Respects (Over fun l l' => Runs j l l' ∧
      (∀ h ∈ queue.map (·.handle), (l'.accounts j).waiting h = []) ∧ (queue = [] → l' = l)) := by
  induction queue generalizing completed with
  | nil => exact fun c => ⟨refl_of (Runs j) (ledger c), by simp, fun _ => rfl⟩
  | cons g rest ih =>
    have hstep (c c₁ c₂ c' : Channel (Ledgered σ)) (h₁ : Runs j (ledger c) (ledger c₁))
        (h₂ : ledger c₂ = (ledger c₁).withdraw j g.handle)
        (h' : Runs j (ledger c₂) (ledger c') ∧
          ∀ h ∈ rest.map (·.handle), ((ledger c').accounts j).waiting h = []) :
        Runs j (ledger c) (ledger c') ∧
          (∀ h ∈ (g :: rest).map (·.handle), ((ledger c').accounts j).waiting h = []) ∧
          (g :: rest = [] → ledger c' = ledger c) := by
      have hr : Reads j (ledger c₁) (ledger c₂) := h₂ ▸ withdraw_reads g.handle
      refine ⟨trans_of _ h₁ (trans_of _ hr.toRuns h'.1), List.forall_mem_cons.mpr ⟨?_, h'.2⟩,
        fun hn => absurd hn (List.cons_ne_nil _ _)⟩
      have hw : ((ledger c₂).accounts j).waiting g.handle = [] := by simp [h₂]
      exact (h'.1.drops g.handle).elim (·.trans hw) id
    refine .of_triple fun c => .bind (g.run_ok d c) fun ⟨outcome, result⟩ c₁ h₁ => ?_
    refine .bind (Channel.release_ok d g.handle c₁) fun _ c₂ h₂ => ?_
    cases outcome with
    | ok _ =>
      exact ((ih _).triple c₂).mono (fun _ c' h => hstep c c₁ c₂ c' h₁ h₂ ⟨h.1, h.2.1⟩)
        fun _ c' h => hstep c c₁ c₂ c' h₁ h₂ ⟨h.1, h.2.1⟩
    | error cause =>
      refine .bind (((StatementPool.releaseAll_reads d _).triple c₂).mono (fun _ c' h => ?_)
        fun _ c' h => ?_) fun _ c₃ h₃ => .throw h₃
      · exact hstep c c₁ c₂ c' h₁ h₂ ⟨h.1.toRuns, h.2⟩
      · exact hstep c c₁ c₂ c' h₁ h₂ ⟨h.1.toRuns, h.2⟩

theorem flush_runs (d : Driver σ) :
    (flush (d.ledgered j)).Respects fun s s' => Runs j (ledger s) (ledger s') ∧ s'.1 = [] ∧
      (((ledger s).accounts j).Tidy s.1 → ((ledger s').accounts j).Settled) ∧
      (s.1 = [] → ledger s' = ledger s) := by
  refine .of_triple fun ⟨queue, c⟩ => ?_
  refine .bind_get (.bind_modify ?_)
  refine .onSecond (((runAll_runs d [] queue).triple c).mono (fun _ c' h => ?_) fun _ c' h => ?_)
  · exact ⟨h.1, rfl, fun ht => ht.settled h.1.drops h.2.1, h.2.2⟩
  · exact ⟨h.1, rfl, fun ht => ht.settled h.1.drops h.2.1, h.2.2⟩

theorem discard_reads (d : Driver σ) :
    (discard (d.ledgered j)).Respects fun s s' => Reads j (ledger s) (ledger s') ∧ s'.1 = [] ∧
      (((ledger s).accounts j).Tidy s.1 → ((ledger s').accounts j).Settled) := by
  refine .of_triple fun ⟨queue, c⟩ => ?_
  refine .bind_get (.bind_modify ?_)
  refine .onSecond (((StatementPool.releaseAll_reads d _).triple c).mono (fun _ c' h => ?_)
    fun _ c' h => ?_)
  · exact ⟨h.1, rfl, fun ht => ht.settled h.1.drops h.2⟩
  · exact ⟨h.1, rfl, fun ht => ht.settled h.1.drops h.2⟩

theorem query_ok (e : Execution) (d : Driver σ) (s : BatchQueue × Channel (Ledgered σ)) :
    Triple (query e (d.ledgered j)) s
      (fun rows s' => s'.1 = [] ∧ ∃ l, Runs j (ledger s) l ∧
        (((ledger s).accounts j).Tidy s.1 → (l.accounts j).Settled) ∧
        (s.1 = [] → l = ledger s) ∧ Reading j l rows (ledger s'))
      (fun _ s' => s'.1 = [] ∧ ∃ l, Runs j (ledger s) l ∧
        (((ledger s).accounts j).Tidy s.1 → (l.accounts j).Settled) ∧
        (s.1 = [] → l = ledger s) ∧ Reads j l (ledger s')) := by
  refine .bind (((flush_runs d).triple s).mono (fun _ _ h => h) fun _ s' h =>
    ⟨h.2.1, _, h.1, h.2.2.1, h.2.2.2, refl_of _ _⟩) ?_
  rintro _ ⟨_, c₁⟩ ⟨hr, rfl, ht, hn⟩
  exact .onSecond ((e.queryOnce_ok d c₁).mono (fun rows c' h => ⟨rfl, _, hr, ht, hn, h⟩)
    fun _ c' h => ⟨rfl, _, hr, ht, hn, h⟩)

end BatchQueue

-- ---------------------------------------------------------------------------
-- Strategies
-- ---------------------------------------------------------------------------

namespace Strategy

variable {d : Driver σ}

theorem update_works (e : Execution) (d : Driver σ) :
    (update e (d.ledgered j)).Respects fun s s' => Works j (ledger s) (ledger s') ∧
      (((ledger s).accounts j).Tidy s.1.queue → ((ledger s').accounts j).Tidy s'.1.queue) := by
  refine .of_triple fun ⟨s, c⟩ => ?_
  cases s with
  | simple =>
    exact dispatch_simple (((e.updateOnce_runs d).triple c).mono
      (fun _ _ h => ⟨h.toWorks, fun ht => ht.drops h.drops⟩)
      fun _ _ h => ⟨h.toWorks, fun ht => ht.drops h.drops⟩)
  | reuse pool =>
    exact dispatch_reuse (((StatementPool.update_runs e d).triple (pool, c)).mono
      (fun _ _ h => ⟨h.toWorks, fun ht => ht.drops h.drops⟩)
      fun _ _ h => ⟨h.toWorks, fun ht => ht.drops h.drops⟩)
  | batch queue =>
    exact dispatch_batch (((BatchQueue.update_works e d).triple (queue, c)).mono
      (fun _ _ h => h) fun _ _ h => h)

def Rests (j : Nat) (s : Strategy × Channel (Ledgered σ)) : Prop :=
  s.1.queue = [] ∧ ((ledger s).accounts j).executed = []

structure Goes (j : Nat) (s s' : Strategy × Channel (Ledgered σ)) : Prop where
  runs : Runs j (ledger s) (ledger s')
  tidy : ((ledger s).accounts j).Tidy s.1.queue → ((ledger s').accounts j).Tidy s'.1.queue
  rests : Rests j s → Rests j s'

theorem Goes.of_reads {s s' : Strategy × Channel (Ledgered σ)} (hs : s.1.queue = [])
    (hs' : s'.1.queue = []) (h : Reads j (ledger s) (ledger s')) : Goes j s s' where
  runs := h.toRuns
  tidy ht := hs' ▸ (hs ▸ ht).drops h.drops
  rests hr := ⟨hs', h.sameExecuted.trans hr.2⟩

/-- A query of a strategy sees all that the session has executed, and nothing waits then. -/
def Answers (j : Nat) (s : Strategy × Channel (Ledgered σ)) (rows : ResultSet)
    (s' : Strategy × Channel (Ledgered σ)) : Prop :=
  ((ledger s).accounts j).Tidy s.1.queue → ∃ l, Runs j (ledger s) l ∧ (l.accounts j).Settled ∧
    Reads j (l.read j rows) (ledger s')

theorem Answers.of_reading {s s' : Strategy × Channel (Ledgered σ)} {rows : ResultSet}
    {l : Ledger} (hr : Runs j (ledger s) l)
    (ht : ((ledger s).accounts j).Tidy s.1.queue → (l.accounts j).Settled)
    (h : Reading j l rows (ledger s')) : Answers j s rows s' := by
  intro hs
  obtain ⟨l₀, h₀, h₁⟩ := h
  refine ⟨l₀, trans_of _ hr h₀.toRuns, ?_, h₁⟩
  exact Account.tidy_nil.mp ((Account.tidy_nil.mpr (ht hs)).drops h₀.drops)

theorem query_ok (e : Execution) (d : Driver σ) (s : Strategy × Channel (Ledgered σ)) :
    Triple (query e (d.ledgered j)) s
      (fun rows s' => Goes j s s' ∧ Answers j s rows s') (fun _ s' => Goes j s s') := by
  obtain ⟨s, c⟩ := s
  cases s with
  | simple =>
    refine dispatch_simple ((e.queryOnce_ok d c).mono (fun rows c' h => ?_) fun _ c' h => ?_)
    · exact ⟨.of_reads rfl rfl h.reads, .of_reading (refl_of (Runs j) _) Account.tidy_nil.mp h⟩
    · exact .of_reads rfl rfl h
  | reuse pool =>
    refine dispatch_reuse ((StatementPool.query_ok e d (pool, c)).mono (fun rows s' h => ?_)
      fun _ s' h => ?_)
    · exact ⟨.of_reads rfl rfl h.reads, .of_reading (refl_of (Runs j) _) Account.tidy_nil.mp h⟩
    · exact .of_reads rfl rfl h
  | batch queue =>
    have hgoes {c' : Channel (Ledgered σ)} {queue' : BatchQueue} {l : Ledger} (hq : queue' = [])
        (hr : Runs j (ledger c) l)
        (hs : ((ledger c).accounts j).Tidy queue → (l.accounts j).Settled)
        (hn : queue = [] → l = ledger c) (h : Reads j l (ledger c')) :
        Goes j (.batch queue, c) (.batch queue', c') := by
      refine ⟨trans_of _ hr h.toRuns, fun ht => ?_, fun hrest => ⟨hq, ?_⟩⟩
      · exact hq ▸ (Account.tidy_nil.mpr (hs ht)).drops h.drops
      · have hl := hn hrest.1
        subst hl
        exact h.sameExecuted.trans hrest.2
    refine dispatch_batch ((BatchQueue.query_ok e d (queue, c)).mono ?_ ?_)
    · rintro rows ⟨queue', c'⟩ ⟨hq, l, hr, hs, hn, h⟩
      exact ⟨hgoes hq hr hs hn h.reads, .of_reading hr hs h⟩
    · rintro _ ⟨queue', c'⟩ ⟨hq, l, hr, hs, hn, h⟩
      exact hgoes hq hr hs hn h

theorem flush_ok (d : Driver σ) :
    (flush (d.ledgered j)).Respects fun s s' => Goes j s s' ∧ s'.1.queue = [] := by
  refine .of_triple fun ⟨s, c⟩ => ?_
  cases s with
  | simple => exact dispatch_simple (.pure ⟨.of_reads rfl rfl (refl_of (Reads j) (ledger c)), rfl⟩)
  | reuse pool =>
    refine dispatch_reuse (.bind (((StatementPool.flush_reads d).triple (pool, c)).mono
      (fun _ _ h => h) fun _ _ h => ?_) fun _ _ h => .pure ?_)
    · exact ⟨.of_reads rfl rfl h, rfl⟩
    · exact ⟨.of_reads rfl rfl h, rfl⟩
  | batch queue =>
    have hgoes {c' : Channel (Ledgered σ)} {queue' : BatchQueue}
        (h : Runs j (ledger c) (ledger c') ∧ queue' = [] ∧
          (((ledger c).accounts j).Tidy queue → ((ledger c').accounts j).Settled) ∧
          (queue = [] → ledger c' = ledger c)) :
        Goes j (.batch queue, c) (.batch queue', c') ∧ (Strategy.batch queue').queue = [] := by
      obtain ⟨hr, rfl, hs, hn⟩ := h
      refine ⟨⟨hr, fun ht => Account.tidy_nil.mpr (hs ht), fun hrest => ⟨rfl, ?_⟩⟩, rfl⟩
      exact (congrArg (fun l => (l.accounts j).executed) (hn hrest.1)).trans hrest.2
    exact dispatch_batch (((BatchQueue.flush_runs d).triple (queue, c)).mono
      (fun _ _ h => hgoes h) fun _ _ h => hgoes h)

theorem discard_ok (d : Driver σ) :
    (discard (d.ledgered j)).Respects fun s s' =>
      Goes j s s' ∧ Reads j (ledger s) (ledger s') ∧ s'.1.queue = [] := by
  refine .of_triple fun ⟨s, c⟩ => ?_
  cases s with
  | simple =>
    have hr := refl_of (Reads j) (ledger c)
    exact dispatch_simple (.pure ⟨.of_reads rfl rfl hr, hr, rfl⟩)
  | reuse pool =>
    exact dispatch_reuse (((StatementPool.flush_reads d).triple (pool, c)).mono
      (fun _ _ h => ⟨.of_reads rfl rfl h, h, rfl⟩) fun _ _ h => ⟨.of_reads rfl rfl h, h, rfl⟩)
  | batch queue =>
    have hgoes {c' : Channel (Ledgered σ)} {queue' : BatchQueue}
        (h : Reads j (ledger c) (ledger c') ∧ queue' = [] ∧
          (((ledger c).accounts j).Tidy queue → ((ledger c').accounts j).Settled)) :
        Goes j (.batch queue, c) (.batch queue', c') ∧ Reads j (ledger c) (ledger c') ∧
          (Strategy.batch queue').queue = [] := by
      obtain ⟨hr, rfl, hs⟩ := h
      refine ⟨⟨hr.toRuns, fun ht => Account.tidy_nil.mpr (hs ht), fun hrest => ⟨rfl, ?_⟩⟩, hr, rfl⟩
      exact hr.sameExecuted.trans hrest.2
    exact dispatch_batch (((BatchQueue.discard_reads d).triple (queue, c)).mono
      (fun _ _ h => hgoes h) fun _ _ h => hgoes h)

end Strategy

end MappedSql
