import MappedSql.Proofs.Publication
import MappedSql.Proofs.Recordings

/-!
# Clean sessions

A session that is open and not dirty has no update that waits and none that was executed without
being committed or rolled back, whatever it did before and wherever its driver failed. So the
calls that end its transaction, unless they are forced to reach the database, have nothing to
commit and nothing to give up: all they ask of the driver is to close statements.
-/

namespace MappedSql

open Ledger

variable {σ α : Type} {j : Nat} {d : Driver σ}

-- ---------------------------------------------------------------------------
-- What is not required
-- ---------------------------------------------------------------------------

theorem Strategy.flush_idle (d : Driver σ) {s : Strategy × Channel (Ledgered σ)}
    (hq : s.1.queue = []) :
    Triple (flush (d.ledgered j)) s (fun _ s' => Reads j (ledger s) (ledger s'))
      fun _ s' => Reads j (ledger s) (ledger s') := by
  obtain ⟨s, c⟩ := s
  cases s with
  | simple => exact dispatch_simple (.pure (refl_of (Reads j) (ledger c)))
  | reuse pool =>
    have hflush := (StatementPool.flush_reads (j := j) d).triple (pool, c)
    exact dispatch_reuse (hflush.returning (fun _ h => h) _)
  | batch queue =>
    obtain rfl : queue = [] := hq
    have hflush := (BatchQueue.flush_runs (j := j) d).triple ([], c)
    have hsame {s' : BatchQueue × Channel (Ledgered σ)} (h : ledger s' = ledger c) :
        Reads j (ledger c) (ledger s') := h ▸ refl_of (Reads j) _
    exact dispatch_batch (hflush.mono (fun _ _ h => hsame (h.2.2.2 rfl))
      fun _ _ h => hsame (h.2.2.2 rfl))

namespace Worker

variable {x : Worker (Ledgered σ) × Channel (Ledgered σ)}
  (hd : x.1.transaction.driver = d.ledgered j)
include hd

theorem commit_idle (hq : x.1.strategy.queue = []) :
    Triple (commit false) x (fun _ x' => Reads j (ledger x) (ledger x'))
      fun _ x' => Reads j (ledger x) (ledger x') := by
  refine bind_ensureOpen (fun ho => .bind_modify ?_) fun _ => refl_of (Reads j) _
  refine .bind (P := fun _ x' => Reads j (ledger x) (ledger x')) ?_ fun _ _ h => .pure h
  refine bind_ensureOpen (fun _ => ?_) fun _ => refl_of (Reads j) _
  refine bind_current (bind_connection hd ho ?_)
  exact onStrategy_ok (Strategy.flush_idle d hq) (fun _ _ _ h => h) fun _ _ _ h => h

theorem rollback_idle :
    Triple (rollback false) x (fun _ x' => Reads j (ledger x) (ledger x'))
      fun _ x' => Reads j (ledger x) (ledger x') := by
  refine bind_current ?_
  cases ho : x.1.isClosed with
  | true => exact .pure (refl_of (Reads j) _)
  | false =>
    refine .bind_modify (bind_current ?_)
    refine .bind (P := fun _ x' => Reads j (ledger x) (ledger x')) (.attempt ?_) ?_
    · refine bind_connection hd ho ?_
      exact onStrategy_ok ((Strategy.discard_ok d).triple _) (fun _ _ _ h => h.2.1)
        fun _ _ _ h => h.2.1
    · intro discarded x₁ h₁
      exact .bind (.attempt (.pure h₁)) fun rolledBack x₂ h₂ =>
        .bind_ofExcept (fun _ _ => .ofExcept (fun _ _ => h₂) fun _ _ => h₂) fun _ _ => h₂

theorem close_idle {E : Error → Worker (Ledgered σ) × Channel (Ledgered σ) → Prop} :
    Triple (close false) x (fun _ x' => Reads j (ledger x) (ledger x')) E := by
  refine bind_current ?_
  cases x.1.isClosed with
  | true => exact .pure (refl_of (Reads j) _)
  | false => exact .bind (.attempt (rollback_idle hd)) fun _ _ h => .modify h

end Worker

namespace Executor

variable {y : Executor (Ledgered σ) × World (Ledgered σ)}
  (hd : (work y).1.transaction.driver = d.ledgered j)
include hd

theorem commit_idle (hq : (work y).1.strategy.queue = []) :
    Triple (commit false) y (fun _ y' => Reads j (ledger y) (ledger (work y')))
      fun _ y' => Reads j (ledger y) (ledger (work y')) := by
  have hworker := onWorker_ok (Worker.commit_idle hd hq)
    (Q := fun _ y' => Reads j (ledger y) (ledger (work y')))
    (E := fun _ y' => Reads j (ledger y) (ledger (work y'))) (fun _ _ h => h) fun _ _ h => h
  refine .bind hworker ?_
  intro _ y₁ h₁
  refine publish_idles.mono ?_ fun _ _ => False.elim
  intro _ y' (h : work y' = work y₁)
  exact h ▸ h₁

theorem rollback_idle :
    Triple (rollback false) y (fun _ y' => Reads j (ledger y) (ledger (work y')))
      fun _ y' => Reads j (ledger y) (ledger (work y')) := by
  have hworker := onWorker_ok (Worker.rollback_idle hd)
    (Q := fun _ y' => Reads j (ledger y) (ledger (work y')))
    (E := fun _ y' => Reads j (ledger y) (ledger (work y'))) (fun _ _ h => h) fun _ _ h => h
  exact .bind (.attempt hworker) fun outcome y₁ h₁ => .ofExcept (fun _ _ => h₁) fun _ _ => h₁

theorem close_idle {E : Error → Executor (Ledgered σ) × World (Ledgered σ) → Prop} :
    Triple (close false) y (fun _ y' => Reads j (ledger y) (ledger (work y'))) E := by
  refine .bind publish_idles ?_
  intro _ y₁ (h : work y₁ = work y)
  have hworker := Worker.close_idle (x := work y₁) (h ▸ hd) (E := fun _ _ => False)
  rw [h] at hworker
  exact onWorker_ok (h ▸ hworker) (fun _ _ h => h) fun _ _ => False.elim

end Executor

/-- The calls that end a transaction, unless they are forced to reach the database. -/
def Call.EndsUnforced : Call → Prop
  | .commit force | .rollback force => force = false
  | .close | .drop => True
  | _ => False

open Session in
theorem Call.ends_idle {c : Call} {z : Session (Ledgered σ) × World (Ledgered σ)}
    (hc : c.EndsUnforced) (hd : (work z).1.transaction.driver = d.ledgered j)
    (hq : (work z).1.strategy.queue = []) (hclean : z.1.isDirty = false) :
    Triple c.perform z (fun _ z' => Reads j (ledger z) (ledger z'))
      fun _ z' => Reads j (ledger z) (ledger z') := by
  have hclose : Triple Session.close z (fun _ z' => Reads j (ledger z) (ledger z'))
      fun _ z' => Reads j (ledger z) (ledger z') := by
    refine bind_isRequired ?_
    rw [hclean]
    exact .bind (onExecutor_ok (Executor.close_idle hd (E := fun _ _ => False)) (fun _ _ h => h)
      fun _ _ => False.elim) fun _ _ h => .modify h
  cases c with
  | commit force =>
    obtain rfl : force = false := hc
    refine Triple.returning (P := fun z' => Reads j (ledger z) (ledger z')) (bind_isRequired ?_)
      (fun _ h => h) _
    rw [hclean]
    exact .bind (onExecutor_ok (Executor.commit_idle hd hq) (fun _ _ h => h) fun _ _ h => h)
      fun _ _ h => .modify h
  | rollback force =>
    obtain rfl : force = false := hc
    refine Triple.returning (P := fun z' => Reads j (ledger z) (ledger z')) (bind_isRequired ?_)
      (fun _ h => h) _
    rw [hclean]
    exact .bind (onExecutor_ok (Executor.rollback_idle hd) (fun _ _ h => h) fun _ _ h => h)
      fun _ _ h => .modify h
  | close => exact hclose.returning (fun _ h => h) _
  | drop =>
    refine Triple.returning (P := fun z' => Reads j (ledger z) (ledger z')) (.bind_get ?_)
      (fun _ h => h) _
    cases z.1.isClosed with
    | true => exact .pure (refl_of (Reads j) _)
    | false => exact hclose
  | selectList | selectOne | handOut | update | flush | clearCache => exact hc.elim

-- ---------------------------------------------------------------------------
-- Runs
-- ---------------------------------------------------------------------------

structure Account.Empty (a : Account) : Prop where
  settled : a.Settled
  executed : a.executed = []

theorem Account.Empty.reads {l l' : Ledger} (h : (l.accounts j).Empty) (hr : Reads j l l') :
    (l'.accounts j).Empty where
  settled := tidy_nil.mp ((tidy_nil.mpr h.settled).drops hr.drops)
  executed := hr.sameExecuted.trans h.executed

theorem Session.Sound.empty {z : Session (Ledgered σ) × World (Ledgered σ)}
    (hs : Session.Sound j z) (hr : Worker.Rests j (Session.work z)) :
    ((ledger z).accounts j).Empty where
  settled := by
    have ht : ((ledger z).accounts j).Tidy (Session.work z).1.strategy.queue := hs.tidy
    rw [hr.1] at ht
    exact Account.tidy_nil.mp ht
  executed := hr.2

namespace System

/-- In whatever state sessions have come to, one that is open and not dirty has no group of a
batch that waits, and since the last commit or rollback of its driver that succeeded nothing was
executed on it. Ending its transaction, unless that is forced, executes no update, commits none
and gives none up. -/
theorem clean_sessions_abandon_nothing (caches : Caches) (state : σ) (events : List (Event σ))
    (j : Nat) (session : Session (Ledgered σ))
    (hj : ((start caches state).run events).sessions[j]? = some session)
    (ho : session.isClosed = false) (hclean : session.isDirty = false) :
    let s := (start caches state).run events
    session.executor.worker.strategy.queue = [] ∧ ((ledger s).accounts j).Empty ∧
      ∀ c : Call, c.EndsUnforced →
        let s' := s.step (.call j c)
        ((ledger s').accounts j).Empty ∧ (ledger s').next = (ledger s).next ∧
          (ledger s').committed = (ledger s).committed := by
  intro s
  have hs : Session.Sound j (session, s.world) :=
    (run_accounted caches state events).1.sessions j session hj
  have hrests := hs.rests ho hclean
  have hempty : ((ledger s).accounts j).Empty := hs.empty hrests
  refine ⟨hrests.1, hempty, fun c hc => ?_⟩
  obtain ⟨d, hd⟩ := hs.driver
  obtain ⟨session', world, r, hstep, -, hok, herror⟩ :=
    step_call hj (Call.ends_idle hc hd hrests.1 hclean)
  have hr : Reads j (ledger s) (ledger world) := by
    cases r with
    | ok reply => exact hok reply rfl
    | error e => exact herror e rfl
  rw [hstep]
  exact ⟨hempty.reads hr, hr.sameNext, hr.sameCommitted⟩

end System

namespace Notes

/-- A batch fails, its session rolls back, and then commits another one. -/
def settled : List (Event Recording) :=
  [.opens configuration { failBatch := some (1, 1) : Script }.driver none .batch,
    .call 0 (.update "write" (.ofInt 1)), .call 0 (.update "write" (.ofInt 2)),
    .call 0 (.commit false), .call 0 (.rollback false), .call 0 (.update "wipe" .null),
    .call 0 (.commit false)]

end Notes

namespace System

theorem settled_notes_abandon_nothing :
    let s := (start Notes.caches {}).run Notes.settled
    s.sessions.map (fun session => (session.isClosed, session.isDirty)) = [(false, false)] ∧
      (ledger s).committed.length = 1 ∧ ((ledger s).accounts 0).Empty ∧
      ((ledger (s.step (.call 0 .close))).accounts 0).Empty := by
  have hflags : ((start Notes.caches {}).run Notes.settled).sessions.map
      (fun session => (session.isClosed, session.isDirty)) = [(false, false)] := by
    decide +kernel
  obtain ⟨session, hsession, hs⟩ := List.map_eq_singleton_iff.mp hflags
  obtain ⟨ho, hclean⟩ := Prod.mk.inj hs
  have h := clean_sessions_abandon_nothing Notes.caches {} Notes.settled 0 session
    (by rw [hsession]; rfl) ho hclean
  exact ⟨hflags, by decide +kernel, h.2.1, (h.2.2 .close trivial).1⟩

end System

end MappedSql
