import MappedSql.Proofs.ExecutorCalls

/-!
# What sessions do

The calls of a session as data, and what each of them may do, whether it succeeds or fails. A
session that is not dirty has nothing executed that is not committed and nothing queued. So what
it publishes when a commit or a rollback is not required has nothing uncommitted underneath, and
when one is required, the commit comes first and the rollback publishes nothing.
-/

namespace MappedSql

open Ledger

variable {σ α : Type} {j : Nat} {U : CacheRef → Prop} {d : Driver σ}

inductive Call
  | selectList (id : String) (argument : Argument) (bounds : RowBounds)
  | selectOne (id : String) (argument : Argument)
  | handOut (id : String) (argument : Argument) (bounds : RowBounds) (enough : Nat → Row → Bool)
  | update (id : String) (argument : Argument)
  | flush
  | commit (force : Bool)
  | rollback (force : Bool)
  | clearCache
  | close
  | drop

inductive Reply
  | rows (rows : ResultSet)
  | row (row : Option Row)
  | handed (rows : List (Nat × Row))
  | count (count : UpdateCount)
  | batches (results : List BatchResult)
  | done

namespace Call

def perform : Call → SessionCall σ Reply
  | .selectList id argument bounds => return .rows (← Session.selectList id argument bounds)
  | .selectOne id argument => return .row (← Session.selectOne id argument)
  | .handOut id argument bounds enough =>
    return .handed (← Session.handOut id argument bounds enough)
  | .update id argument => return .count (← Session.update id argument)
  | .flush => return .batches (← Session.flush)
  | .commit force => do
    Session.commit force
    return .done
  | .rollback force => do
    Session.rollback force
    return .done
  | .clearCache => do
    Session.clearCache
    return .done
  | .close => do
    Session.close
    return .done
  | .drop => do
    Session.drop
    return .done

def Publishes : Call → Prop
  | .commit _ | .close | .drop => True
  | _ => False

def IsRollback : Call → Prop
  | .rollback _ => True
  | _ => False

def IsSelect : Call → Prop
  | .selectList _ _ _ | .selectOne _ _ | .handOut _ _ _ _ => True
  | _ => False

/-- The reply of a query to which the database has answered with given rows. -/
def Shows : Call → ResultSet → Reply → Prop
  | .selectList _ _ _, rows, reply => reply = .rows rows
  | .selectOne _ _, rows, reply => ∃ row, reply = .row row ∧ rows.rows = row.toList
  | .handOut _ _ _ enough, rows, reply => reply = .handed (ResultSet.handOut enough 0 rows.rows)
  | _, _, _ => False

end Call

def Configuration.Uses (U : CacheRef → Prop) (c : Configuration) : Prop :=
  ∀ id s, c.statement id = .ok s → ∀ r, s.cache = some r → U r

namespace Session

variable {z z' : Session (Ledgered σ) × World (Ledgered σ)}
  {Q : α → Session (Ledgered σ) × World (Ledgered σ) → Prop}
  {E : Error → Session (Ledgered σ) × World (Ledgered σ) → Prop}

def Holds (s : Session σ) (entry : CacheKey × ResultSet) : Prop :=
  s.executor.Holds entry

def Clears (s : Session σ) (i : Nat) : Prop :=
  s.executor.Clears i

-- ---------------------------------------------------------------------------
-- Calls
-- ---------------------------------------------------------------------------

structure Asks (j : Nat) (U : CacheRef → Prop)
    (z z' : Session (Ledgered σ) × World (Ledgered σ)) : Prop where
  executor : Executor.Asks j U (unit z) (unit z')
  isDirty : z'.1.isDirty = z.1.isDirty

theorem Asks.refl (z : Session (Ledgered σ) × World (Ledgered σ)) : Asks j U z z :=
  ⟨refl_of _ _, rfl⟩

/-- A result that a session has for a query. -/
def Answer (j : Nat) (U : CacheRef → Prop) (z : Session (Ledgered σ) × World (Ledgered σ))
    (rows : ResultSet) (l' : Ledger) : Prop :=
  ∃ key, Executor.Answer j U (unit z) (key, rows) l'

theorem selectList_ok (hd : z.1.executor.worker.transaction.driver = d.ledgered j)
    (hU : z.1.configuration.Uses U) (id : String) (argument : Argument) (bounds : RowBounds) :
    Triple (selectList id argument bounds) z
      (fun rows z' => Asks j U z z' ∧ (Worker.Tidy j (work z) → Answer j U z rows (ledger z')))
      (fun _ z' => Asks j U z z') := by
  refine bind_statement (fun s hs => ?_) fun _ _ => .refl z
  exact onExecutor_ok (Executor.query_ok hd (hU id s hs) argument bounds)
    (fun _ _ hy => ⟨⟨hy.1, rfl⟩, hy.2⟩) fun _ _ hy => ⟨hy, rfl⟩

theorem selectOne_ok (hd : z.1.executor.worker.transaction.driver = d.ledgered j)
    (hU : z.1.configuration.Uses U) (id : String) (argument : Argument) :
    Triple (selectOne id argument) z
      (fun row z' => Asks j U z z' ∧ (Worker.Tidy j (work z) →
        ∃ rows : ResultSet, rows.rows = row.toList ∧ Answer j U z rows (ledger z')))
      (fun _ z' => Asks j U z z') := by
  refine .bind (selectList_ok hd hU id argument .unbounded) ?_
  rintro rows z' ⟨h, ha⟩
  split
  · rename_i hr
    exact .pure ⟨h, fun ht => ⟨rows, hr, ha ht⟩⟩
  · rename_i row hr
    exact .pure ⟨h, fun ht => ⟨rows, hr, ha ht⟩⟩
  · exact .throw h

theorem handOut_ok (hd : z.1.executor.worker.transaction.driver = d.ledgered j)
    (hU : z.1.configuration.Uses U) (id : String) (argument : Argument) (bounds : RowBounds)
    (enough : Nat → Row → Bool) :
    Triple (handOut id argument bounds enough) z
      (fun handed z' => Asks j U z z' ∧ (Worker.Tidy j (work z) → ∃ rows,
        handed = ResultSet.handOut enough 0 rows.rows ∧ Fetched j (ledger z) rows (ledger z')))
      (fun _ z' => Asks j U z z') := by
  refine bind_statement (fun s hs => ?_) fun _ _ => .refl z
  exact onExecutor_ok (Executor.handOut_ok hd (hU id s hs) argument bounds enough)
    (fun _ _ hy => ⟨⟨hy.1, rfl⟩, hy.2⟩) fun _ _ hy => ⟨hy, rfl⟩

theorem flush_ok (hd : z.1.executor.worker.transaction.driver = d.ledgered j) :
    Triple flush z (fun _ => Asks j U z) (fun _ => Asks j U z) :=
  onExecutor_ok (Executor.flush_asks hd) (fun _ _ hy => ⟨hy, rfl⟩) fun _ _ hy => ⟨hy, rfl⟩

theorem clearCache_ok : Triple clearCache z (fun _ => Asks j U z) (fun _ => Asks j U z) :=
  onExecutor_ok (Executor.clearLocalCache_asks.triple _) (fun _ _ hy => ⟨hy, rfl⟩)
    fun _ _ hy => ⟨hy, rfl⟩

structure Updates (j : Nat) (U : CacheRef → Prop) (s : Statement)
    (z z' : Session (Ledgered σ) × World (Ledgered σ)) : Prop where
  executor : Executor.Updates j U s (unit z) (unit z')
  isDirty : z'.1.isDirty = true

theorem update_ok (hd : z.1.executor.worker.transaction.driver = d.ledgered j)
    (hU : z.1.configuration.Uses U) (id : String) (argument : Argument) :
    Triple (update id argument) z
      (fun _ z' => ∃ s, z.1.configuration.statement id = .ok s ∧ Updates j U s z z')
      (fun _ z' => z' = z ∨ ∃ s, z.1.configuration.statement id = .ok s ∧ Updates j U s z z') := by
  refine bind_statement (fun s hs => .bind_modify ?_) fun _ _ => .inl rfl
  exact onExecutor_ok (z := ({ z.1 with isDirty := true }, z.2))
    (Executor.update_ok hd (hU id s hs) argument)
    (fun _ _ hy => ⟨s, hs, hy, rfl⟩) fun _ _ hy => .inr ⟨s, hs, hy, rfl⟩

structure Commits (j : Nat) (force : Bool)
    (z z' : Session (Ledgered σ) × World (Ledgered σ)) : Prop where
  executor : Executor.Commits j (force || z.1.isDirty) (unit z) (unit z')
  isDirty : z'.1.isDirty = false

theorem commit_ok (hd : z.1.executor.worker.transaction.driver = d.ledgered j) (force : Bool) :
    Triple (commit force) z (fun _ => Commits j force z) (fun _ => Asks j U z) := by
  refine bind_isRequired (.bind (onExecutor_ok (Executor.commit_ok hd _)
    (Q := fun _ z' => Executor.Commits j (force || z.1.isDirty) (unit z) (unit z'))
    (fun _ _ => id) fun _ _ hy => ⟨hy, rfl⟩) fun _ z' h => ?_)
  exact .modify ⟨h, rfl⟩

structure RollsBack (j : Nat) (force : Bool)
    (z z' : Session (Ledgered σ) × World (Ledgered σ)) : Prop where
  executor : Executor.RolledBack j (force || z.1.isDirty) (unit z) (unit z')

structure RolledBack (j : Nat) (force : Bool)
    (z z' : Session (Ledgered σ) × World (Ledgered σ)) : Prop extends RollsBack j force z z' where
  isDirty : z'.1.isDirty = false
  settles : z.1.isClosed = false → (force || z.1.isDirty) = true →
    ((ledger z').accounts j).executed = []

theorem rollback_ok (hd : z.1.executor.worker.transaction.driver = d.ledgered j) (force : Bool) :
    Triple (rollback force) z (fun _ => RolledBack j force z)
      (fun _ z' => RollsBack j force z z' ∧ z'.1.isDirty = z.1.isDirty) := by
  refine bind_isRequired (.bind (onExecutor_ok (Executor.rollback_ok hd _)
    (Q := fun _ z' => RollsBack j force z z' ∧ (z.1.isClosed = false →
      (force || z.1.isDirty) = true → ((ledger z').accounts j).executed = []))
    (fun _ _ hy => ⟨⟨hy.1⟩, hy.2⟩) fun _ _ hy => ⟨⟨hy⟩, rfl⟩) ?_)
  rintro _ z' ⟨⟨h⟩, he⟩
  exact .modify ⟨⟨h⟩, rfl, he⟩

structure Closes (j : Nat) (z z' : Session (Ledgered σ) × World (Ledgered σ)) : Prop where
  executor : Executor.Closes j z.1.isDirty (unit z) (unit z')
  isDirty : z'.1.isDirty = false

theorem close_ok (hd : z.1.executor.worker.transaction.driver = d.ledgered j) :
    Triple close z (fun _ => Closes j z) E := by
  refine bind_isRequired (.bind (onExecutor_ok (Executor.close_ok hd _ (E := fun _ _ => False))
    (Q := fun _ z' => Executor.Closes j z.1.isDirty (unit z) (unit z'))
    (fun _ _ => id) fun _ _ => False.elim) fun _ z' h => ?_)
  exact .modify ⟨h, rfl⟩

theorem drop_ok (hd : z.1.executor.worker.transaction.driver = d.ledgered j) :
    Triple drop z (fun _ z' => z' = z ∨ Closes j z z') E := by
  refine .bind_get ?_
  cases z.1.isClosed with
  | true => exact .pure (.inl rfl)
  | false => exact (close_ok hd).mono (fun _ _ => .inr) fun _ _ => id

-- ---------------------------------------------------------------------------
-- What holds of a session between calls
-- ---------------------------------------------------------------------------

/-- A session that is open and not dirty has left nothing queued or uncommitted, and a closed
session keeps no result. -/
structure Sound (j : Nat) (z : Session (Ledgered σ) × World (Ledgered σ)) : Prop where
  driver : ∃ d : Driver σ, z.1.executor.worker.transaction.driver = d.ledgered j
  tidy : Worker.Tidy j (work z)
  rests : z.1.isClosed = false → z.1.isDirty = false → Worker.Rests j (work z)
  closed : z.1.isClosed = true → ∀ entry, ¬ z.1.Holds entry

theorem Sound.frame {s : Session (Ledgered σ)} {w w' : World (Ledgered σ)} (h : Sound j (s, w))
    (ha : (ledger w').accounts j = (ledger w).accounts j) : Sound j (s, w') := by
  refine ⟨h.driver, ?_, fun ho hd => ⟨(h.rests ho hd).1, ?_⟩, h.closed⟩
  · change ((ledger w').accounts j).Tidy _
    rw [ha]
    exact h.tidy
  · change ((ledger w').accounts j).executed = []
    rw [ha]
    exact (h.rests ho hd).2

theorem Sound.not_holds (h : Sound j z) (hr : Worker.Rests j (work z)) (n : Nat) :
    ¬ ((ledger z).accounts j).Holds n := by
  have ht : ((ledger z).accounts j).Tidy z.1.executor.worker.strategy.queue := h.tidy
  rintro (hn | ⟨handle, hn⟩)
  · have he : ((ledger z).accounts j).executed = [] := hr.2
    simp [he] at hn
  · have hq : z.1.executor.worker.strategy.queue = [] := hr.1
    rw [hq, Account.tidy_nil] at ht
    simp [ht handle] at hn

theorem Commits.rests {force : Bool} (hs : Sound j z) (h : Commits j force z z') :
    Worker.Rests j (work z') := by
  refine ⟨h.executor.sends, ?_⟩
  cases hd : force || z.1.isDirty with
  | true => exact h.executor.commits hd
  | false =>
    obtain ⟨-, hd⟩ := Bool.or_eq_false_iff.mp hd
    exact (h.executor.worker.rests (hs.rests h.executor.wasOpen hd)).2

theorem RolledBack.rests {force : Bool} (hs : Sound j z) (ho : z.1.isClosed = false)
    (h : RolledBack j force z z') : Worker.Rests j (work z') := by
  refine ⟨(h.executor.worker.forgets ho).2, ?_⟩
  cases hd : force || z.1.isDirty with
  | true => exact h.settles ho hd
  | false =>
    obtain ⟨-, hd⟩ := Bool.or_eq_false_iff.mp hd
    exact (h.executor.worker.rests (hs.rests ho hd)).2

theorem RollsBack.isClosed_eq {force : Bool} (h : RollsBack j force z z') :
    z'.1.isClosed = z.1.isClosed :=
  congrArg Transaction.isClosed h.executor.worker.transaction

theorem RollsBack.holds {force : Bool} (hs : Sound j z) (h : RollsBack j force z z')
    {entry : CacheKey × ResultSet} (he : z'.1.Holds entry) :
    z.1.Holds entry ∧ (force || z.1.isDirty) = false := by
  rcases he with hl | hw
  · cases ho : z.1.isClosed with
    | false =>
      have hn : z'.1.executor.worker.localCache = [] := (h.executor.worker.forgets ho).1
      rw [hn] at hl
      exact absurd hl List.not_mem_nil
    | true => exact absurd (.inl (h.executor.worker.kept hl)) (hs.closed ho entry)
  · obtain ⟨hw, hr⟩ := h.executor.writes entry hw
    exact ⟨.inr hw, hr⟩

theorem not_holds_of_forgets {s : Session (Ledgered σ)} {entry : CacheKey × ResultSet}
    (hl : s.executor.worker.localCache = []) (hw : ¬ s.executor.Writes entry) :
    ¬ s.Holds entry := by
  rintro (he | he)
  · rw [hl] at he
    exact List.not_mem_nil he
  · exact hw he

theorem Updates.not_holds {s : Statement} {r : CacheRef} (hs' : Sound j z')
    (h : Updates j U s z z') (hr : s.cache = some r) (hf : s.flushesCache = true)
    (hc : z.1.executor.overlays.isSome = true) (ht : z.1.executor.Targets (· = r))
    (entry : CacheKey × ResultSet) : ¬ z'.1.Holds entry := by
  cases ho : z.1.isClosed with
  | true => exact hs'.closed (h.executor.worker.isClosed_eq.trans ho) entry
  | false =>
    exact not_holds_of_forgets (h.executor.forgets ho)
      ((h.executor.flushed r hr hf hc ht).1 entry)

theorem Commits.not_holds {force : Bool} (h : Commits j force z z')
    (entry : CacheKey × ResultSet) : ¬ z'.1.Holds entry :=
  not_holds_of_forgets h.executor.forgets (h.executor.writes entry)

theorem Closes.not_holds (hs : Sound j z) (h : Closes j z z') (entry : CacheKey × ResultSet) :
    ¬ z'.1.Holds entry := by
  have hw : ¬ z'.1.executor.Writes entry := by
    cases hd : z.1.isDirty with
    | true =>
      exact fun hw => absurd ((h.executor.retracts hd).writes entry hw).2 Bool.true_eq_false.mp
    | false => exact (h.executor.publishes hd).writes entry
  cases ho : z.1.isClosed with
  | false => exact not_holds_of_forgets (h.executor.forgets ho) hw
  | true =>
    rintro (hl | hw')
    · exact hs.closed ho entry (.inl (h.executor.worker.kept hl))
    · exact hw hw'

end Session

-- ---------------------------------------------------------------------------
-- All calls
-- ---------------------------------------------------------------------------

namespace Call

open Session

variable {c : Call} {r : Except Error Reply}
  {z z' : Session (Ledgered σ) × World (Ledgered σ)}

inductive Effect (j : Nat) (U : CacheRef → Prop) (c : Call) (r : Except Error Reply)
    (z z' : Session (Ledgered σ) × World (Ledgered σ)) : Prop
  | asks (h : Asks j U z z')
  | updates (s : Statement) (h : Updates j U s z z')
  | commits (force : Bool) (hc : c = .commit force) (h : Commits j force z z')
  | rollsBack (force : Bool) (hr : r.isOk = true) (h : RolledBack j force z z')
  | failsToRollBack (force : Bool) (hc : c = .rollback force) (hr : r.isOk = false)
    (h : RollsBack j force z z') (isDirty : z'.1.isDirty = z.1.isDirty)
  | closes (hc : c.Publishes) (h : Closes j z z')

theorem perform_ok (hd : z.1.executor.worker.transaction.driver = d.ledgered j)
    (hU : z.1.configuration.Uses U) (c : Call) :
    Triple c.perform z (fun reply => Effect j U c (.ok reply) z)
      (fun e => Effect j U c (.error e) z) := by
  have hreturn {β : Type} {a : SessionCall (Ledgered σ) β} {f : β → Reply}
      {Q : Session (Ledgered σ) × World (Ledgered σ) → Prop}
      (h : Triple a z (fun _ => Q) (fun e => Effect j U c (.error e) z))
      (hQ : ∀ reply z', Q z' → Effect j U c (.ok reply) z z') :
      Triple (do return f (← a)) z (fun reply => Effect j U c (.ok reply) z)
        (fun e => Effect j U c (.error e) z) :=
    .bind h fun _ _ hq => .pure (hQ _ _ hq)
  cases c with
  | selectList id argument bounds =>
    exact hreturn ((selectList_ok hd hU id argument bounds).mono (fun _ _ h => h.1)
      fun _ _ => .asks) fun _ _ => .asks
  | selectOne id argument =>
    exact hreturn ((selectOne_ok hd hU id argument).mono (fun _ _ h => h.1)
      fun _ _ => .asks) fun _ _ => .asks
  | handOut id argument bounds enough =>
    exact hreturn ((handOut_ok hd hU id argument bounds enough).mono (fun _ _ h => h.1)
      fun _ _ => .asks) fun _ _ => .asks
  | update id argument =>
    refine hreturn (Q := fun z' => ∃ s, Updates j U s z z') ((update_ok hd hU id argument).mono
      (fun _ _ ⟨s, _, h⟩ => ⟨s, h⟩) fun e z' h => ?_) fun _ _ ⟨s, h⟩ => .updates s h
    obtain rfl | ⟨s, -, h⟩ := h
    · exact .asks (.refl _)
    · exact .updates s h
  | flush =>
    exact hreturn ((flush_ok hd).mono (fun _ _ => id) fun _ _ => .asks) fun _ _ => .asks
  | commit force =>
    exact .bind ((commit_ok (U := U) hd force).mono (fun _ _ => id) fun _ _ => .asks) fun _ _ h =>
      .pure (.commits force rfl h)
  | rollback force =>
    refine .bind ((rollback_ok hd force).mono (fun _ _ => id) fun _ _ h => ?_) fun _ _ h =>
      .pure (.rollsBack force rfl h)
    exact .failsToRollBack force rfl rfl h.1 h.2
  | clearCache =>
    exact .bind ((clearCache_ok (j := j) (U := U)).mono (fun _ _ => id) fun _ _ => .asks)
      fun _ _ h => .pure (.asks h)
  | close =>
    exact .bind (close_ok hd) fun _ _ h => .pure (.closes trivial h)
  | drop =>
    refine .bind (drop_ok hd) fun _ _ h => .pure ?_
    obtain rfl | h := h
    · exact .asks (.refl _)
    · exact .closes trivial h

theorem select_ok (hd : z.1.executor.worker.transaction.driver = d.ledgered j)
    (hU : z.1.configuration.Uses U) (ht : Worker.Tidy j (work z)) (hc : c.IsSelect) :
    Triple c.perform z (fun reply z' => Works j (ledger z) (ledger z') ∧
        ∃ rows, c.Shows rows reply ∧ Answer j U z rows (ledger z'))
      (fun _ _ => True) := by
  cases c with
  | selectList id argument bounds =>
    refine .bind ((selectList_ok hd hU id argument bounds).mono (fun _ _ h => h)
      fun _ _ _ => trivial) ?_
    rintro rows z' ⟨h, ha⟩
    exact .pure ⟨h.executor.worker.works, rows, rfl, ha ht⟩
  | selectOne id argument =>
    refine .bind ((selectOne_ok hd hU id argument).mono (fun _ _ h => h)
      fun _ _ _ => trivial) ?_
    rintro row z' ⟨h, ha⟩
    obtain ⟨rows, hr, ha⟩ := ha ht
    exact .pure ⟨h.executor.worker.works, rows, ⟨row, rfl, hr⟩, ha⟩
  | handOut id argument bounds enough =>
    refine .bind ((handOut_ok hd hU id argument bounds enough).mono (fun _ _ h => h)
      fun _ _ _ => trivial) ?_
    rintro handed z' ⟨h, ha⟩
    obtain ⟨rows, rfl, hf⟩ := ha ht
    exact .pure ⟨h.executor.worker.works, rows, rfl, .ofComponents [], .inr (.inl hf)⟩
  | _ => exact hc.elim

theorem Effect.sound (hs : Sound j z) (h : Effect j U c r z z') : Sound j z' := by
  obtain ⟨d, hd⟩ := hs.driver
  have hcalls (h : Executor.Calls j U (unit z) (unit z'))
      (hrests : z'.1.isClosed = false → z'.1.isDirty = false → Worker.Rests j (work z')) :
      Sound j z' := by
    refine ⟨⟨d, h.worker.transaction ▸ hd⟩, h.worker.tidy hs.tidy, hrests, fun hc entry => ?_⟩
    have hc : z.1.isClosed = true := h.worker.isClosed_eq.symm.trans hc
    rintro (hl | hw)
    · have hx : work z' = work z := h.worker.closed hc
      change entry ∈ (work z').1.localCache at hl
      rw [hx] at hl
      exact hs.closed hc entry (.inl hl)
    · exact hs.closed hc entry (.inr (h.closed hc entry hw))
  have hrolled (force : Bool) (h : RollsBack j force z z')
      (hrests : z'.1.isClosed = false → z'.1.isDirty = false → Worker.Rests j (work z')) :
      Sound j z' :=
    ⟨⟨d, h.executor.worker.driver.trans hd⟩, h.executor.worker.tidy hs.tidy, hrests,
      fun hc entry he => hs.closed (h.isClosed_eq.symm.trans hc) entry (h.holds hs he).1⟩
  cases h with
  | asks h =>
    refine hcalls h.executor.toCalls fun ho hd => h.executor.rests (hs.rests ?_ ?_)
    · exact h.executor.worker.isClosed_eq.symm.trans ho
    · exact h.isDirty.symm.trans hd
  | updates s h =>
    exact hcalls h.executor.toCalls fun _ hd =>
      absurd (h.isDirty.symm.trans hd) Bool.true_eq_false.mp
  | commits force _ h =>
    have hc : z'.1.isClosed = false :=
      h.executor.worker.isClosed_eq.trans h.executor.wasOpen
    exact ⟨⟨d, h.executor.worker.transaction ▸ hd⟩, h.executor.worker.tidy hs.tidy,
      fun _ _ => h.rests hs, fun ho => absurd (hc.symm.trans ho) Bool.false_ne_true⟩
  | rollsBack force _ h =>
    exact hrolled force h.toRollsBack fun ho _ => h.rests hs (h.isClosed_eq.symm.trans ho)
  | failsToRollBack force _ _ h hsame =>
    exact hrolled force h fun ho hd => h.executor.worker.rests
      (hs.rests (h.isClosed_eq.symm.trans ho) (hsame.symm.trans hd))
  | closes _ h =>
    exact ⟨⟨d, h.executor.worker.driver.trans hd⟩, h.executor.worker.tidy hs.tidy,
      fun ho => absurd (h.executor.closed.symm.trans ho) Bool.true_eq_false.mp,
      fun _ => h.not_holds hs⟩

/-- What any call may do. A result that enters a cache had been held by the session, and
nothing that the session executed is left uncommitted by then. -/
structure Moves (j : Nat) (U : CacheRef → Prop) (c : Call) (r : Except Error Reply)
    (z z' : Session (Ledgered σ) × World (Ledgered σ)) : Prop where
  acts : Acts j (ledger z) (ledger z')
  configuration : z'.1.configuration = z.1.configuration
  held : ∀ entry, z'.1.Holds entry →
    z.1.Holds entry ∧ Works j (ledger z) (ledger z') ∨ Fetched j (ledger z) entry.2 (ledger z')
  shared : ∀ i entry, z'.2.caches.Has i entry → z.2.caches.Has i entry ∨ z.1.Holds entry ∧
    c.Publishes ∧ Works j (ledger z) (ledger z') ∧ ((ledger z').accounts j).executed = []
  caching : z'.1.executor.overlays.isSome = z.1.executor.overlays.isSome
  targets : z.1.executor.Targets U → z'.1.executor.Targets U
  clears : z'.1.isClosed = false → ∀ i, z.1.Clears i → z'.1.Clears i ∨
    Worker.Rests j (work z') ∨ c.IsRollback ∧ r.isOk = false
  closed : z.1.isClosed = true → z'.1.isClosed = true

theorem Effect.moves (hs : Sound j z) (h : Effect j U c r z z') : Moves j U c r z z' := by
  have hcalls (h : Executor.Calls j U (unit z) (unit z')) : Moves j U c r z z' :=
    { acts := h.worker.works.toActs
      configuration := h.worker.configuration
      held := fun entry he => by
        rcases he with hl | hw
        · exact (h.worker.kept hs.tidy entry hl).imp_left fun hl => ⟨.inl hl, h.worker.works⟩
        · exact (h.writes hs.tidy entry hw).imp_left fun he => ⟨he, h.worker.works⟩
      shared := fun i entry he => .inl (h.shared i entry he)
      caching := h.caching
      targets := h.targets
      clears := fun _ i hc => .inl (h.clears i hc)
      closed := h.worker.isClosed_eq.trans }
  have hrolled (force : Bool) (h : RollsBack j force z z')
      (hclears : z.1.isClosed = false →
        Worker.Rests j (work z') ∨ c.IsRollback ∧ r.isOk = false) : Moves j U c r z z' :=
    { acts := h.executor.worker.acts
      configuration := h.executor.worker.configuration
      held := fun entry he =>
        have ⟨he, hr⟩ := h.holds hs he
        .inl ⟨he, h.executor.worker.works hr⟩
      shared := fun i entry he => .inl (h.executor.shared ▸ he)
      caching := h.executor.caching
      targets := h.executor.targets U
      clears := fun ho _ _ => .inr (hclears (h.isClosed_eq.symm.trans ho))
      closed := h.isClosed_eq.trans }
  cases h with
  | asks h => exact hcalls h.executor.toCalls
  | updates s h => exact hcalls h.executor.toCalls
  | commits force hc h =>
    exact
      { acts := h.executor.worker.works.toActs
        configuration := h.executor.worker.configuration
        held := fun entry he => absurd he (h.not_holds entry)
        shared := fun i entry he => by
          rcases h.executor.shared i entry he with ⟨he, -⟩ | he
          · exact .inl he
          · exact .inr ⟨.inr he, hc ▸ trivial, h.executor.worker.works, (h.rests hs).2⟩
        caching := h.executor.caching
        targets := h.executor.targets U
        clears := fun _ _ _ => .inr (.inl (h.rests hs))
        closed := h.executor.worker.isClosed_eq.trans }
  | rollsBack force _ h => exact hrolled force h.toRollsBack fun ho => .inl (h.rests hs ho)
  | failsToRollBack force hc hr h _ => exact hrolled force h fun _ => .inr ⟨hc ▸ trivial, hr⟩
  | closes hc h =>
    have hends (hshared : ∀ i entry, z'.2.caches.Has i entry → z.2.caches.Has i entry ∨
          z.1.Holds entry ∧ c.Publishes ∧ Works j (ledger z) (ledger z') ∧
            ((ledger z').accounts j).executed = [])
        (hcaching : z'.1.executor.overlays.isSome = z.1.executor.overlays.isSome)
        (htargets : z.1.executor.Targets U → z'.1.executor.Targets U) : Moves j U c r z z' :=
      { acts := h.executor.worker.acts
        configuration := h.executor.worker.configuration
        held := fun entry he => absurd he (h.not_holds hs entry)
        shared := hshared
        caching := hcaching
        targets := htargets
        clears := fun ho => absurd (h.executor.closed.symm.trans ho) Bool.true_eq_false.mp
        closed := fun _ => h.executor.closed }
    cases hd : z.1.isDirty with
    | true =>
      have hr := h.executor.retracts hd
      exact hends (fun i entry he => .inl (hr.shared ▸ he)) hr.caching (hr.targets U)
    | false =>
      have hp := h.executor.publishes hd
      refine hends (fun i entry he => ?_) hp.caching (hp.targets U)
      rcases hp.shared i entry he with ⟨he, -⟩ | he
      · exact .inl he
      · cases ho : z.1.isClosed with
        | true => exact absurd (.inr he) (hs.closed ho entry)
        | false =>
          exact .inr ⟨.inr he, hc, h.executor.worker.works hd,
            (h.executor.worker.rests (hs.rests ho hd)).2⟩

end Call

end MappedSql
