import Mathlib.Data.List.Induction
import Mathlib.Data.List.Infix
import Mathlib.Order.RelIso.Basic
import MappedSql.Proofs.SessionCalls

/-!
# Requests and what they keep

The operations of an executor as data, and runs of many operations, each of which may fail. A
relation between the states before and after is kept by all of them when it is kept by what a
strategy does, and it is kept by what a strategy does when the single calls of the driver keep
it. Whatever flushes or ends the work leaves no handle held.
-/

namespace MappedSql

-- ---------------------------------------------------------------------------
-- Actions in turn
-- ---------------------------------------------------------------------------

namespace Action

variable {ι σ α : Type} {f : ι → Action σ α}

/-- Does actions one after another, whether or not they succeed, and notes how each ended. -/
def inTurn (f : ι → Action σ α) : List ι → σ → List (ι × Except Error α) × σ
  | [], s => ([], s)
  | i :: rest, s =>
    let (r, s) := (f i).outcome s
    let (done, s) := inTurn f rest s
    ((i, r) :: done, s)

theorem inTurn_append (before after : List ι) (s : σ) :
    inTurn f (before ++ after) s =
      ((inTurn f before s).1 ++ (inTurn f after (inTurn f before s).2).1,
        (inTurn f after (inTurn f before s).2).2) := by
  induction before generalizing s with
  | nil => rfl
  | cons i rest ih => simp only [List.cons_append, inTurn, ih]

theorem inTurn_map_fst (is : List ι) (s : σ) : (inTurn f is s).1.map (·.1) = is := by
  induction is generalizing s with
  | nil => rfl
  | cons i rest ih => simp only [inTurn, List.map_cons, ih]

theorem inTurn_induction {I : List (ι × Except Error α) → σ → Prop} {is : List ι} {s : σ}
    (h : I [] s)
    (hstep : ∀ before i, before ++ [i] <+: is →
      I (inTurn f before s).1 (inTurn f before s).2 →
        Triple (f i) (inTurn f before s).2
          (fun value => I ((inTurn f before s).1 ++ [(i, .ok value)]))
          (fun e => I ((inTurn f before s).1 ++ [(i, .error e)]))) :
    I (inTurn f is s).1 (inTurn f is s).2 := by
  -- By induction on the actions from the last one, for all prefixes of `is`.
  have hprefix (before : List ι) (hb : before <+: is) :
      I (inTurn f before s).1 (inTurn f before s).2 := by
    induction before using List.reverseRecOn with
    | nil => exact h
    | append_singleton before i ih =>
      have hi := hstep before i hb (ih ((List.prefix_append before [i]).trans hb))
      rw [inTurn_append]
      unfold Triple at hi
      split at hi <;> rename_i ho <;> simpa only [inTurn, ho] using hi
  exact hprefix is (List.prefix_refl _)

theorem Respects.inTurn {R : σ → σ → Prop} [IsPreorder σ R] (h : ∀ i, (f i).Respects R)
    (is : List ι) (s : σ) : R s (inTurn f is s).2 :=
  inTurn_induction (I := fun _ => R s) (refl_of R s) fun _ i _ hs => (h i).after hs

theorem Respects.onSecond {R : σ → σ → Prop} {τ : Type} {a : Action σ α} (h : a.Respects R) :
    (a.onSecond : Action (τ × σ) α).Respects (Order.Preimage Prod.snd R) :=
  h.within fun _ _ => id

end Action

-- ---------------------------------------------------------------------------
-- Requests
-- ---------------------------------------------------------------------------

inductive Request
  | update (s : Statement) (argument : Argument)
  | query (s : Statement) (argument : Argument) (bounds : RowBounds)
  | handOut (s : Statement) (argument : Argument) (bounds : RowBounds)
    (enough : Nat → Row → Bool)
  | flush
  | commit (required : Bool)
  | rollback (required : Bool)
  | clearLocalCache
  | close (force : Bool)

namespace Request

variable {σ : Type}

def perform : Request → Execute σ Reply
  | .update s argument => return .count (← Executor.update s argument)
  | .query s argument bounds => return .rows (← Executor.query s argument bounds)
  | .handOut s argument bounds enough =>
    return .handed (← Executor.handOut s argument bounds enough)
  | .flush => return .batches (← Executor.flush)
  | .commit required => do
    Executor.commit required
    return .done
  | .rollback required => do
    Executor.rollback required
    return .done
  | .clearLocalCache => do
    Executor.clearLocalCache
    return .done
  | .close force => do
    Executor.close force
    return .done

/-- A new executor on a database, with the caches that are shared. -/
def opened (d : Driver σ) (c : Configuration) (timeout : Option Timeout) (type : ExecutorType)
    (database : σ) (caches : Caches) : Executor σ × World σ :=
  (.start c { driver := d, timeout } type, { database, caches })

def run (start : Executor σ × World σ) (requests : List Request) : Executor σ × World σ :=
  (Action.inTurn perform requests start).2

def Releases : Request → Prop
  | .flush | .commit _ | .rollback _ | .close _ => True
  | _ => False

end Request

def Session.opened {σ : Type} (d : Driver σ) (c : Configuration) (timeout : Option Timeout)
    (type : ExecutorType) (w : World σ) : Session σ × World σ :=
  (.start c { driver := d, timeout } type, w)

-- ---------------------------------------------------------------------------
-- From drivers to strategies
-- ---------------------------------------------------------------------------

variable {σ α : Type} {d : Driver σ}

/-- The calls of a driver on an open handle, and notes in the journal, keep a relation. -/
structure Driver.KeepsOpen (d : Driver σ) (R : Channel σ → Channel σ → Prop) : Prop where
  bind : ∀ h values, (Channel.drive (d.bind h values)).Respects R
  addBatch : ∀ h, (Channel.drive (d.addBatch h)).Respects R
  executeUpdate : ∀ h, (Channel.drive (d.executeUpdate h)).Respects R
  executeBatch : ∀ h, (Channel.drive (d.executeBatch h)).Respects R
  executeQuery : ∀ h, (Channel.drive (d.executeQuery h)).Respects R
  record : ∀ event, (Channel.record event : Action (Channel σ) Nat).Respects R

structure Driver.Keeps (d : Driver σ) (R : Channel σ → Channel σ → Prop) : Prop
    extends d.KeepsOpen R where
  prepare : ∀ sql timeout, (Channel.drive (d.prepare sql timeout)).Respects R
  close : ∀ h, (Channel.drive (d.close h)).Respects R
  commit : (Channel.drive d.commit).Respects R
  rollback : (Channel.drive d.rollback).Respects R

def Strategy.Alongside (R : Channel σ → Channel σ → Prop) (s s' : Strategy × Channel σ) : Prop :=
  s'.1.type = s.1.type ∧ R s.2 s'.2

instance (R : Channel σ → Channel σ → Prop) [IsPreorder (Channel σ) R] :
    IsPreorder (Strategy × Channel σ) (Strategy.Alongside R) where
  refl _ := ⟨rfl, refl_of R _⟩
  trans _ _ _ h h' := ⟨h'.1.trans h.1, trans_of R h.2 h'.2⟩

structure Strategy.Keeps (d : Driver σ)
    (R : Strategy × Channel σ → Strategy × Channel σ → Prop) : Prop where
  update : ∀ e, (update e d).Respects R
  query : ∀ e, (query e d).Respects R
  flush : (flush d).Respects R
  discard : (discard d).Respects R
  commit : (Channel.drive d.commit).onSecond.Respects R
  rollback : (Channel.drive d.rollback).onSecond.Respects R

namespace Driver.KeepsOpen

variable {R : Channel σ → Channel σ → Prop} [IsPreorder (Channel σ) R]

theorem updateOn (hk : d.KeepsOpen R) (e : Execution) (h : Handle) (values : List Value) :
    (e.updateOn d h values).Respects R :=
  .bind (hk.bind h values) fun _ => .bind (hk.executeUpdate h) fun _ =>
    .bind (Channel.generateKeys_respects hk.record _ _) fun _ => .pure _

theorem queryOn (hk : d.KeepsOpen R) (h : Handle) (values : List Value) :
    (Execution.queryOn d h values).Respects R :=
  .bind (hk.bind h values) fun _ => hk.executeQuery h

theorem addItem (hk : d.KeepsOpen R) (h : Handle) (values : List Value) :
    (BatchQueue.addItem d h values).Respects R :=
  .bind (hk.bind h values) fun _ => hk.addBatch h

/-- How the group ended is told, so running it does not fail. -/
theorem runGroup (hk : d.KeepsOpen R) (g : BatchGroup) (c : Channel σ)
    {E : Error → Channel σ → Prop} : Triple (g.run d) c (fun _ => R c) E := by
  refine .bind ((hk.executeBatch g.handle).attempt_triple c) fun r c₁ h₁ => ?_
  cases r with
  | error cause => exact .pure h₁
  | ok counts =>
    refine .bind ((g.requestKeys_respects hk.record _).attempt_triple c₁) fun r c₂ h₂ => ?_
    cases r <;> exact .pure (trans_of R h₁ h₂)

end Driver.KeepsOpen

namespace Driver.Keeps

variable {R : Channel σ → Channel σ → Prop} [IsPreorder (Channel σ) R]

theorem release (hk : d.Keeps R) (h : Handle) : (Channel.release d h).Respects R :=
  .bind (hk.close h).attempt fun _ => .pure _

theorem releaseAll (hk : d.Keeps R) (handles : List Handle) :
    (StatementPool.releaseAll d handles).Respects R := by
  induction handles with
  | nil => exact .pure _
  | cons h rest ih => exact .bind (hk.release h) fun _ => ih

theorem withHandle (hk : d.Keeps R) (h : Handle) {work : Action (Channel σ) α}
    (hw : work.Respects R) : (Channel.withHandle d h work).Respects R :=
  .bind hw.attempt fun _ => .bind (hk.close h).attempt fun _ => .bind (.ofExcept _) fun _ =>
    .bind (.ofExcept _) fun _ => .pure _

theorem updateOnce (hk : d.Keeps R) (e : Execution) : (e.updateOnce d).Respects R :=
  .bind (.ofExcept _) fun values => .bind (hk.prepare _ _) fun h =>
    hk.withHandle h (hk.updateOn e h values)

theorem queryOnce (hk : d.Keeps R) (e : Execution) : (e.queryOnce d).Respects R :=
  .bind (.ofExcept _) fun values => .bind (hk.prepare _ _) fun h =>
    hk.withHandle h (hk.queryOn h values)

theorem modify_first {τ : Type} {g : τ × Channel σ → τ × Channel σ} (hg : ∀ s, (g s).2 = s.2) :
    (modify g : Action (τ × Channel σ) Unit).Respects (Order.Preimage Prod.snd R) :=
  .modify fun s => show R s.2 (g s).2 from (hg s).symm ▸ refl_of R s.2

theorem handleFor (hk : d.Keeps R) (e : Execution) :
    (StatementPool.handleFor e d).Respects (Order.Preimage Prod.snd R) := by
  refine .bind .get fun s => ?_
  split
  · exact .pure _
  · exact .bind (hk.prepare _ _).onSecond fun _ =>
      .bind (modify_first fun _ => rfl) fun _ => .pure _

theorem drop (hk : d.Keeps R) (sql : String) :
    (StatementPool.drop d sql).Respects (Order.Preimage Prod.snd R) := by
  refine .bind .get fun s => ?_
  split
  · exact .bind (modify_first fun _ => rfl) fun _ => (hk.release _).onSecond
  · exact .pure _

theorem run (hk : d.Keeps R) (e : Execution) {work : Handle → Action (Channel σ) α}
    (hw : ∀ h, (work h).Respects R) :
    (StatementPool.run e d work).Respects (Order.Preimage Prod.snd R) := by
  refine .bind (hk.handleFor e) fun h => .bind (hw h).onSecond.attempt fun r => ?_
  cases r with
  | ok value => exact .pure _
  | error cause => exact .bind (hk.drop _) fun _ => .throw _

theorem openGroup (hk : d.Keeps R) (e : Execution) (values : List Value) :
    (BatchQueue.openGroup e d values).Respects R := by
  refine .bind (hk.prepare _ _) fun h => .bind (hk.addItem h values).attempt fun r => ?_
  cases r with
  | ok _ => exact .pure _
  | error cause => exact .bind (hk.release h) fun _ => .throw _

theorem updateQueue (hk : d.Keeps R) (e : Execution) :
    (BatchQueue.update e d).Respects (Order.Preimage Prod.snd R) := by
  refine .bind (Action.Respects.ofExcept _).onSecond fun values => .bind .get fun s => ?_
  split
  · exact .bind (hk.addItem _ values).onSecond fun _ =>
      .bind (modify_first fun _ => rfl) fun _ => .pure _
  · exact .bind (hk.openGroup e values).onSecond fun _ =>
      .bind (modify_first fun _ => rfl) fun _ => .pure _

theorem runAll (hk : d.Keeps R) (completed : List BatchResult) (queue : BatchQueue) :
    (BatchQueue.runAll d completed queue).Respects R := by
  induction queue generalizing completed with
  | nil => exact .pure _
  | cons g rest ih =>
    refine .bind (.of_triple (hk.runGroup g ·)) fun (outcome, result) =>
      .bind (hk.release g.handle) fun _ => ?_
    cases outcome with
    | ok _ => exact ih _
    | error cause => exact .bind (hk.releaseAll _) fun _ => .throw _

theorem flushQueue (hk : d.Keeps R) :
    (BatchQueue.flush d).Respects (Order.Preimage Prod.snd R) :=
  .bind .get fun s => .bind (modify_first fun _ => rfl) fun _ => (hk.runAll [] s.1).onSecond

omit [IsPreorder (Channel σ) R] in
theorem dispatch {simple : Action (Channel σ) α} {reuse : Action (StatementPool × Channel σ) α}
    {batch : Action (BatchQueue × Channel σ) α} (hs : simple.Respects R)
    (hr : reuse.Respects (Order.Preimage Prod.snd R))
    (hb : batch.Respects (Order.Preimage Prod.snd R)) :
    (Strategy.dispatch simple reuse batch).Respects (Strategy.Alongside R) := by
  rintro ⟨s, c⟩
  cases s with
  | simple => exact ⟨rfl, hs c⟩
  | reuse pool => exact ⟨rfl, hr (pool, c)⟩
  | batch queue => exact ⟨rfl, hb (queue, c)⟩

/-- What all calls of a driver keep is kept by what a strategy does. -/
theorem strategy (hk : d.Keeps R) : Strategy.Keeps d (Strategy.Alongside R) where
  update e := dispatch (hk.updateOnce e)
    (.bind (Action.Respects.ofExcept _).onSecond fun values =>
      hk.run e fun h => hk.updateOn e h values)
    (hk.updateQueue e)
  query e := dispatch (hk.queryOnce e)
    (.bind (Action.Respects.ofExcept _).onSecond fun values =>
      hk.run e fun h => hk.queryOn h values)
    (.bind hk.flushQueue fun _ => (hk.queryOnce e).onSecond)
  flush := dispatch (.pure _)
    (.bind (.bind .get fun _ => .bind (modify_first fun _ => rfl) fun _ =>
      (hk.releaseAll _).onSecond) fun _ => .pure _)
    hk.flushQueue
  discard := dispatch (.pure _)
    (.bind .get fun _ => .bind (modify_first fun _ => rfl) fun _ => (hk.releaseAll _).onSecond)
    (.bind .get fun _ => .bind (modify_first fun _ => rfl) fun _ => (hk.releaseAll _).onSecond)
  commit := hk.commit.within fun _ _ h => ⟨rfl, h⟩
  rollback := hk.rollback.within fun _ _ h => ⟨rfl, h⟩

end Driver.Keeps

-- ---------------------------------------------------------------------------
-- From strategies to workers
-- ---------------------------------------------------------------------------

theorem StatementPool.flush_empties (d : Driver σ) : (flush d).Respects fun _ s' => s'.1 = [] :=
  fun _ => rfl

theorem BatchQueue.flush_empties (d : Driver σ) : (flush d).Respects fun _ s' => s'.1 = [] :=
  fun _ => rfl

theorem BatchQueue.discard_empties (d : Driver σ) :
    (discard d).Respects fun _ s' => s'.1 = [] :=
  fun _ => rfl

theorem Strategy.dispatch_held {simple : Action (Channel σ) α}
    {reuse : Action (StatementPool × Channel σ) α} {batch : Action (BatchQueue × Channel σ) α}
    (hr : reuse.Respects fun _ s' => s'.1 = []) (hb : batch.Respects fun _ s' => s'.1 = []) :
    (dispatch simple reuse batch).Respects fun _ s' => s'.1.held = [] := by
  rintro ⟨s, c⟩
  cases s with
  | simple => rfl
  | reuse pool => exact congrArg (fun pool => held (.reuse pool)) (hr (pool, c))
  | batch queue => exact congrArg (fun queue => held (.batch queue)) (hb (queue, c))

theorem Strategy.flush_held (d : Driver σ) : (flush d).Respects fun _ s' => s'.1.held = [] :=
  dispatch_held (.of_triple fun s => .bind ((StatementPool.flush_empties d).triple s)
    fun _ _ h => .pure h) (BatchQueue.flush_empties d)

theorem Strategy.discard_held (d : Driver σ) :
    (discard d).Respects fun _ s' => s'.1.held = [] :=
  dispatch_held (StatementPool.flush_empties d) (BatchQueue.discard_empties d)

namespace Worker

variable {R : Strategy × Channel σ → Strategy × Channel σ → Prop}
  {x x' x'' : Worker σ × Channel σ}

/-- What a call of a worker does to what it works with. A worker that is closed does nothing,
and one that closes lets all handles go. -/
structure Moves (R : Strategy × Channel σ → Strategy × Channel σ → Prop)
    (x x' : Worker σ × Channel σ) : Prop where
  configuration : x'.1.configuration = x.1.configuration
  driver : x'.1.transaction.driver = x.1.transaction.driver
  strategy : R (x.1.strategy, x.2) (x'.1.strategy, x'.2)
  closed : x.1.isClosed = true → x' = x
  closes : x'.1.isClosed = true → x.1.isClosed = true ∨ x'.1.strategy.held = []

structure LetsGo (R : Strategy × Channel σ → Strategy × Channel σ → Prop)
    (x x' : Worker σ × Channel σ) : Prop where
  configuration : x'.1.configuration = x.1.configuration
  driver : x'.1.transaction.driver = x.1.transaction.driver
  strategy : R (x.1.strategy, x.2) (x'.1.strategy, x'.2)
  closed : x.1.isClosed = true → x' = x
  held : x.1.isClosed = false → x'.1.strategy.held = []

theorem LetsGo.moves (h : LetsGo R x x') : Moves R x x' where
  configuration := h.configuration
  driver := h.driver
  strategy := h.strategy
  closed := h.closed
  closes _ := by
    cases ho : x.1.isClosed with
    | true => exact .inl rfl
    | false => exact .inr (h.held ho)

theorem Moves.of_open (ho : x.1.isClosed = false)
    (hc : x'.1.configuration = x.1.configuration) (ht : x'.1.transaction = x.1.transaction)
    (hr : R (x.1.strategy, x.2) (x'.1.strategy, x'.2)) : Moves R x x' where
  configuration := hc
  driver := congrArg Transaction.driver ht
  strategy := hr
  closed h := absurd (ho.symm.trans h) Bool.false_ne_true
  closes h := .inl ((congrArg Transaction.isClosed ht).symm.trans h)

section
variable [IsPreorder (Strategy × Channel σ) R]

theorem Moves.refl (x : Worker σ × Channel σ) : Moves R x x :=
  ⟨rfl, rfl, refl_of R _, fun _ => rfl, .inl⟩

theorem LetsGo.refl (hc : x.1.isClosed = true) : LetsGo R x x :=
  ⟨rfl, rfl, refl_of R _, fun _ => rfl, fun ho => absurd (ho.symm.trans hc) Bool.false_ne_true⟩

end

def Stays (R : Strategy × Channel σ → Strategy × Channel σ → Prop)
    (x x' : Worker σ × Channel σ) : Prop :=
  x'.1.configuration = x.1.configuration ∧ x'.1.transaction = x.1.transaction ∧
    R (x.1.strategy, x.2) (x'.1.strategy, x'.2)

theorem Stays.moves (h : Stays R x x') (ho : x.1.isClosed = false) : Moves R x x' :=
  .of_open ho h.1 h.2.1 h.2.2

theorem Stays.letsGo (h : Stays R x x') (ho : x.1.isClosed = false)
    (hh : x'.1.strategy.held = []) : LetsGo R x x' :=
  ⟨h.1, congrArg Transaction.driver h.2.1, h.2.2,
    fun hc => absurd (ho.symm.trans hc) Bool.false_ne_true, fun _ => hh⟩

section
variable {d : Driver σ} (hk : Strategy.Keeps d R) (hd : x.1.transaction.driver = d)
include hk hd

theorem fetch_stays (ho : x.1.isClosed = false) (s : Statement) (bounds : RowBounds)
    (bound : BoundStatement) :
    Triple (fetch s bounds bound) x (fun _ => Stays R x) (fun _ => Stays R x) := by
  refine bind_current (bind_connection hd ho (.bind (P := fun _ => Stays R x) ?_ fun _ _ h =>
    .pure h))
  exact onStrategy_ok ((hk.query _).triple _) (fun _ _ _ h => ⟨rfl, rfl, h⟩) fun _ _ _ h =>
    ⟨rfl, rfl, h⟩

variable [IsPreorder (Strategy × Channel σ) R]

theorem update_moves (s : Statement) (argument : Argument) :
    Triple (update s argument) x (fun _ => Moves R x) (fun _ => Moves R x) := by
  refine bind_ensureOpen (fun ho => .bind_modify ?_) fun _ => .refl x
  refine .bind_ofExcept (fun bound _ => ?_) fun _ _ => .of_open ho rfl rfl (refl_of R _)
  refine bind_current (bind_connection hd ho (onStrategy_ok ((hk.update _).triple _) ?_ ?_))
  · exact fun _ s c h => .of_open ho rfl rfl h
  · exact fun _ s c h => .of_open ho rfl rfl h

theorem queryBound_moves (s : Statement) (bounds : RowBounds) (key : CacheKey)
    (bound : BoundStatement) :
    Triple (queryBound s bounds key bound) x (fun _ => Moves R x) (fun _ => Moves R x) := by
  refine bind_ensureOpen (fun ho => bind_forgetFor (bind_current ?_)) fun _ => .refl x
  split
  · exact .pure (.of_open ho rfl rfl (refl_of R _))
  · refine .bind ((fetch_stays (x := (x.1.forgottenFor s, x.2)) hk hd ho s bounds bound).mono
      (fun _ _ h => h) fun _ _ h => Stays.moves h ho) fun rows ⟨w₁, c₁⟩ h₁ => .bind_modify ?_
    refine bind_current ?_
    dsimp only
    split
    · exact .bind_modify (.pure (Stays.moves h₁ ho))
    · exact .pure (Stays.moves h₁ ho)

theorem handOut_moves (s : Statement) (argument : Argument) (bounds : RowBounds)
    (enough : Nat → Row → Bool) :
    Triple (handOut s argument bounds enough) x (fun _ => Moves R x) (fun _ => Moves R x) := by
  refine bind_ensureOpen (fun ho => bind_forgetFor ?_) fun _ => .refl x
  refine .bind_ofExcept (fun bound _ => ?_) fun _ _ => .of_open ho rfl rfl (refl_of R _)
  exact .bind ((fetch_stays (x := (x.1.forgottenFor s, x.2)) hk hd ho s bounds bound).mono
    (fun _ _ h => h) fun _ _ h => Stays.moves h ho) fun rows x₁ h₁ => .pure (Stays.moves h₁ ho)

theorem flush_letsGo :
    Triple flush x (fun _ x' => Stays R x x' ∧ x.1.isClosed = false ∧ x'.1.strategy.held = [])
      (fun _ => LetsGo R x) := by
  refine bind_ensureOpen (fun ho => bind_current (bind_connection hd ho ?_)) fun hc => .refl hc
  have hflush : (Strategy.flush d).Respects fun s s' => R s s' ∧ s'.1.held = [] :=
    fun s => ⟨hk.flush s, Strategy.flush_held d s⟩
  exact onStrategy_ok (hflush.triple _) (fun _ _ _ h => ⟨⟨rfl, rfl, h.1⟩, ho, h.2⟩)
    fun _ _ _ h => Stays.letsGo ⟨rfl, rfl, h.1⟩ ho h.2

omit hk hd in
theorem database_stays {a : Action σ Unit} (ha : (Channel.drive a).onSecond.Respects R)
    (h : Stays R x x') : Triple a x'.2.database
      (fun _ database => Stays R x (x'.1, { x'.2 with database }))
      (fun _ database => Stays R x (x'.1, { x'.2 with database })) := by
  have hr : a.Respects fun s s' => ∀ held c, c.database = s →
      R (held, c) (held, { c with database := s' }) := by
    rintro _ held c rfl
    exact ha (held, c)
  have hstays (database : σ) (hs : ∀ held c, c.database = x'.2.database →
      R (held, c) (held, { c with database })) : Stays R x (x'.1, { x'.2 with database }) :=
    ⟨h.1, h.2.1, trans_of R h.2.2 (hs _ _ rfl)⟩
  exact (hr.triple _).mono (fun _ => hstays) fun _ => hstays

theorem commit_letsGo (required : Bool) :
    Triple (commit required) x (fun _ => LetsGo R x) (fun _ => LetsGo R x) := by
  -- The local cache is emptied first, and that is no part of what is told of the call.
  have hforget (ho : x.1.isClosed = false) (x' : Worker σ × Channel σ)
      (h : LetsGo R ({ x.1 with localCache := [] }, x.2) x') : LetsGo R x x' :=
    ⟨h.configuration, h.driver, h.strategy,
      fun hc => absurd (ho.symm.trans hc) Bool.false_ne_true, fun _ => h.held ho⟩
  refine bind_ensureOpen (fun ho => .bind_modify ?_) fun hc => .refl hc
  refine .bind ((flush_letsGo (x := ({ x.1 with localCache := [] }, x.2)) hk hd).mono
    (fun _ _ h => h) fun _ x' => hforget ho x') ?_
  rintro _ x₁ ⟨h₁, -, hh⟩
  have hend (x' : Worker σ × Channel σ) (h : Stays R x x') (hs : x'.1 = x₁.1) : LetsGo R x x' :=
    h.letsGo ho (hs ▸ hh)
  cases required with
  | false => exact .pure (hend x₁ h₁ rfl)
  | true =>
    have hd₁ : x₁.1.transaction.driver = d := h₁.2.1 ▸ hd
    have ho₁ : x₁.1.transaction.isClosed = false := h₁.2.1 ▸ ho
    refine bind_current (onDatabase_ok (Transaction.commit_rule ho₁ (hd₁ ▸
      database_stays hk.commit h₁)) (fun _ _ h => hend _ h rfl) fun _ _ h => hend _ h rfl)

theorem rollback_letsGo (required : Bool) :
    Triple (rollback required) x (fun _ => LetsGo R x) (fun _ => LetsGo R x) := by
  refine bind_current ?_
  cases ho : x.1.isClosed with
  | true => exact .pure (.refl ho)
  | false =>
    refine .bind_modify (bind_current ?_)
    have hdiscard : (Strategy.discard d).Respects fun s s' => R s s' ∧ s'.1.held = [] :=
      fun s => ⟨hk.discard s, Strategy.discard_held d s⟩
    refine .bind (P := fun _ x' => Stays R x x' ∧ x'.1.strategy.held = [])
      (.attempt (bind_connection hd ho (onStrategy_ok (hdiscard.triple _)
        (fun _ _ _ h => ⟨⟨rfl, rfl, h.1⟩, h.2⟩) fun _ _ _ h => ⟨⟨rfl, rfl, h.1⟩, h.2⟩))) ?_
    rintro discarded x₁ ⟨h₁, hh⟩
    refine .bind (P := fun _ x' => Stays R x x' ∧ x'.1.strategy.held = []) (.attempt ?_) ?_
    · cases required with
      | false => exact .pure ⟨h₁, hh⟩
      | true =>
        exact onDatabase_ok (Transaction.rollback_rule ho (hd ▸ database_stays hk.rollback h₁))
          (fun _ _ h => ⟨h, hh⟩) fun _ _ h => ⟨h, hh⟩
    · rintro rolledBack x₂ ⟨h₂, hh₂⟩
      have hend : LetsGo R x x₂ := h₂.letsGo ho hh₂
      exact .bind_ofExcept (fun _ _ => .ofExcept (fun _ _ => hend) fun _ _ => hend) fun _ _ => hend

theorem close_letsGo (force : Bool) {E : Error → Worker σ × Channel σ → Prop} :
    Triple (close force) x (fun _ => LetsGo R x) E := by
  refine bind_current ?_
  cases ho : x.1.isClosed with
  | true => exact .pure (.refl ho)
  | false =>
    refine .bind (.attempt (Q := fun _ => LetsGo R x) (rollback_letsGo hk hd force))
      fun _ x₁ h => .modify ?_
    exact ⟨h.configuration, h.driver, h.strategy,
      fun hc => absurd (ho.symm.trans hc) Bool.false_ne_true, fun _ => h.held ho⟩

end

end Worker

-- ---------------------------------------------------------------------------
-- From workers to executors and sessions
-- ---------------------------------------------------------------------------

namespace Executor

/-- What is done to overlays and caches is no work. -/
def Idles (y y' : Executor σ × World σ) : Prop :=
  work y' = work y

theorem flushCacheFor_idles (s : Statement) :
    (flushCacheFor s : Execute σ Unit).Respects Idles := by
  unfold flushCacheFor
  cases s.cache with
  | none => exact fun _ => rfl
  | some r => cases s.flushesCache <;> exact fun _ => rfl

theorem lookup_idles (r : CacheRef) (key : CacheKey) :
    (lookup r key : Execute σ (Option ResultSet)).Respects Idles := by
  refine .of_triple fun ⟨e, w⟩ => .modifyGet ?_
  cases ho : e.overlays <;> simp [ho, Idles, work]

theorem publish_idles {y : Executor σ × World σ} {E : Error → Executor σ × World σ → Prop} :
    Triple publish y (fun _ => Idles y) E := by
  obtain ⟨e, w⟩ := y
  refine .modify ?_
  cases ho : e.overlays <;> simp [ho, Idles, work]

theorem retract_idles {y : Executor σ × World σ} {E : Error → Executor σ × World σ → Prop} :
    Triple retract y (fun _ => Idles y) E :=
  .modify rfl

variable {R : Strategy × Channel σ → Strategy × Channel σ → Prop} {y : Executor σ × World σ}

theorem onWorker_idle {a : Work σ α} {y₁ : Executor σ × World σ} (h : Idles y y₁)
    {P : Worker σ × Channel σ → Worker σ × Channel σ → Prop}
    (ha : Triple a (work y) (fun _ => P (work y)) (fun _ => P (work y))) :
    Triple (onWorker a) y₁ (fun _ y' => P (work y) (work y'))
      (fun _ y' => P (work y) (work y')) :=
  onWorker_ok (h ▸ ha) (fun _ _ => id) fun _ _ => id

variable [IsPreorder (Strategy × Channel σ) R]

theorem Idles.moves {y' : Executor σ × World σ} (h : Idles y y') :
    Worker.Moves R (work y) (work y') :=
  (h : work y' = work y).symm ▸ .refl (work y)

variable (hk : Strategy.Keeps d R) (hd : (work y).1.transaction.driver = d)
include hk hd

theorem update_moves (s : Statement) (argument : Argument) :
    Triple (update s argument) y (fun _ y' => Worker.Moves R (work y) (work y'))
      (fun _ y' => Worker.Moves R (work y) (work y')) :=
  .bind (((flushCacheFor_idles s).triple y).mono (fun _ _ h => h) fun _ _ h => h.moves)
    fun _ _ h => onWorker_idle h (Worker.update_moves hk hd s argument)

theorem queryBound_moves (s : Statement) (bounds : RowBounds) (key : CacheKey)
    (bound : BoundStatement) :
    Triple (queryBound s bounds key bound) y (fun _ y' => Worker.Moves R (work y) (work y'))
      (fun _ y' => Worker.Moves R (work y) (work y')) := by
  have hworker (y₁ : Executor σ × World σ) (h : Idles y y₁) :=
    onWorker_idle h (Worker.queryBound_moves hk hd s bounds key bound)
  refine .bind_get ?_
  cases (if y.1.overlays.isSome = true then s.cache else none) with
  | none => exact hworker y rfl
  | some r =>
    refine .bind (((flushCacheFor_idles s).triple y).mono (fun _ _ h => h) fun _ _ h => h.moves)
      fun _ y₁ h₁ => ?_
    split
    · refine .bind_ofExcept (fun _ _ => ?_) fun _ _ => h₁.moves
      refine .bind (P := fun _ => Idles y) (((lookup_idles r key).triple y₁).mono
        (fun _ _ h => Eq.trans h h₁) fun _ _ h => Idles.moves (Eq.trans h h₁)) fun found y₂ h₂ => ?_
      cases found with
      | some hit => exact .pure h₂.moves
      | none => exact .bind (hworker y₂ h₂) fun rows y₃ h₃ => .bind_modify (.pure h₃)
    · exact hworker y₁ h₁

theorem query_moves (s : Statement) (argument : Argument) (bounds : RowBounds) :
    Triple (query s argument bounds) y (fun _ y' => Worker.Moves R (work y) (work y'))
      (fun _ y' => Worker.Moves R (work y) (work y')) := by
  refine .bind_ofExcept (fun bound _ => ?_) fun _ _ => .refl _
  refine .bind (P := fun _ y' => y' = y) (onWorker_ok (P := fun _ x => x = work y)
    (F := fun _ x => x = work y) ?_ (by rintro _ _ rfl; rfl) (by rintro _ _ rfl; exact .refl _)) ?_
  · exact Worker.bind_ensureOpen (fun _ => Worker.bind_current (.ofExcept (fun _ _ => rfl)
      fun _ _ => rfl)) fun _ => rfl
  · rintro key _ rfl
    exact queryBound_moves hk hd s bounds key bound

theorem handOut_moves (s : Statement) (argument : Argument) (bounds : RowBounds)
    (enough : Nat → Row → Bool) :
    Triple (handOut s argument bounds enough) y (fun _ y' => Worker.Moves R (work y) (work y'))
      (fun _ y' => Worker.Moves R (work y) (work y')) :=
  .bind (((flushCacheFor_idles s).triple y).mono (fun _ _ h => h) fun _ _ h => h.moves)
    fun _ _ h => onWorker_idle h (Worker.handOut_moves hk hd s argument bounds enough)

theorem flush_letsGo :
    Triple flush y (fun _ y' => Worker.LetsGo R (work y) (work y'))
      (fun _ y' => Worker.LetsGo R (work y) (work y')) :=
  onWorker_idle rfl ((Worker.flush_letsGo hk hd).mono (fun _ _ h => h.1.letsGo h.2.1 h.2.2)
    fun _ _ h => h)

theorem commit_letsGo (required : Bool) :
    Triple (commit required) y (fun _ y' => Worker.LetsGo R (work y) (work y'))
      (fun _ y' => Worker.LetsGo R (work y) (work y')) := by
  refine .bind (onWorker_idle rfl (Worker.commit_letsGo hk hd required)) fun _ y₁ h₁ => ?_
  exact publish_idles.mono (fun _ y' (h : work y' = work y₁) => h.symm ▸ h₁) fun _ _ => False.elim

theorem rollback_letsGo (required : Bool) :
    Triple (rollback required) y (fun _ y' => Worker.LetsGo R (work y) (work y'))
      (fun _ y' => Worker.LetsGo R (work y) (work y')) := by
  refine .bind (.attempt (Q := fun _ y' => Worker.LetsGo R (work y) (work y'))
    (onWorker_idle rfl (Worker.rollback_letsGo hk hd required))) fun r y₁ h₁ => ?_
  cases required with
  | false => exact .ofExcept (fun _ _ => h₁) fun _ _ => h₁
  | true => exact .bind_modify (.ofExcept (fun _ _ => h₁) fun _ _ => h₁)

omit hk hd in
theorem clearLocalCache_moves :
    Triple clearLocalCache y (fun _ y' => Worker.Moves R (work y) (work y'))
      (fun _ y' => Worker.Moves R (work y) (work y')) := by
  refine onWorker_idle rfl (Worker.bind_current ?_)
  cases ho : (work y).1.isClosed with
  | true => exact .pure (.refl _)
  | false => exact .modify (.of_open ho rfl rfl (refl_of R _))

theorem close_letsGo (force : Bool) :
    Triple (close force) y (fun _ y' => Worker.LetsGo R (work y) (work y'))
      (fun _ y' => Worker.LetsGo R (work y) (work y')) := by
  have hworker (y₁ : Executor σ × World σ) (h : Idles y y₁) :=
    onWorker_idle h (Worker.close_letsGo hk hd force (E := fun _ => Worker.LetsGo R (work y)))
  cases force with
  | true => exact .bind retract_idles fun _ y₁ h => hworker y₁ h
  | false => exact .bind publish_idles fun _ y₁ h => hworker y₁ h

end Executor

namespace Request

variable {R : Strategy × Channel σ → Strategy × Channel σ → Prop}
  [IsPreorder (Strategy × Channel σ) R] {y : Executor σ × World σ}

structure Moves (R : Strategy × Channel σ → Strategy × Channel σ → Prop) (r : Request)
    (y y' : Executor σ × World σ) : Prop extends
    Worker.Moves R (Executor.work y) (Executor.work y') where
  releases : r.Releases → y.1.isClosed = false → y'.1.worker.strategy.held = []

theorem perform_moves (hk : Strategy.Keeps d R) (hd : y.1.worker.transaction.driver = d)
    (r : Request) : Triple r.perform y (fun _ => Moves R r y) (fun _ => Moves R r y) := by
  have hmoves (hr : ¬ r.Releases) (y' : Executor σ × World σ)
      (h : Worker.Moves R (Executor.work y) (Executor.work y')) : Moves R r y y' :=
    ⟨h, fun h => absurd h hr⟩
  have hletsGo (y' : Executor σ × World σ)
      (h : Worker.LetsGo R (Executor.work y) (Executor.work y')) : Moves R r y y' :=
    ⟨h.moves, fun _ => h.held⟩
  cases r with
  | update s argument => exact (Executor.update_moves hk hd s argument).returning (hmoves id) _
  | query s argument bounds =>
    exact (Executor.query_moves hk hd s argument bounds).returning (hmoves id) _
  | handOut s argument bounds enough =>
    exact (Executor.handOut_moves hk hd s argument bounds enough).returning (hmoves id) _
  | flush => exact (Executor.flush_letsGo hk hd).returning hletsGo _
  | commit required => exact (Executor.commit_letsGo hk hd required).returning hletsGo _
  | rollback required => exact (Executor.rollback_letsGo hk hd required).returning hletsGo _
  | clearLocalCache => exact Executor.clearLocalCache_moves.returning (hmoves id) _
  | close force => exact (Executor.close_letsGo hk hd force).returning hletsGo _

omit [IsPreorder (Strategy × Channel σ) R] in
theorem opened_worker (d : Driver σ) (c : Configuration) (timeout : Option Timeout)
    (type : ExecutorType) (database : σ) (caches : Caches) :
    (opened d c timeout type database caches).1.worker =
      .start c { driver := d, timeout } type :=
  Executor.start_worker ..

end Request

namespace Session

variable {R : Strategy × Channel σ → Strategy × Channel σ → Prop} {z : Session σ × World σ}

theorem onExecutor_moves {a : Execute σ α} {z₁ : Session σ × World σ} (h : unit z₁ = unit z)
    (ha : Triple a (unit z) (fun _ y' => Worker.Moves R (work z) (Executor.work y'))
      (fun _ y' => Worker.Moves R (work z) (Executor.work y'))) :
    Triple (onExecutor a) z₁ (fun _ z' => Worker.Moves R (work z) (work z'))
      (fun _ z' => Worker.Moves R (work z) (work z')) :=
  onExecutor_ok (h ▸ ha) (fun _ _ => id) fun _ _ => id

end Session

namespace Call

open Session

variable {R : Strategy × Channel σ → Strategy × Channel σ → Prop}
  [IsPreorder (Strategy × Channel σ) R] {z : Session σ × World σ}

theorem perform_commit_letsGo (hk : Strategy.Keeps d R)
    (hd : (work z).1.transaction.driver = d) (force : Bool) :
    Triple (Call.commit force).perform z (fun _ z' => Worker.LetsGo R (work z) (work z'))
      (fun _ z' => Worker.LetsGo R (work z) (work z')) := by
  refine .bind (bind_isRequired (.bind (P := fun _ z' => Worker.LetsGo R (work z) (work z')) ?_
    fun _ _ h => .modify h)) fun _ _ h => .pure h
  exact onExecutor_ok (Executor.commit_letsGo (y := unit z) hk hd _) (fun _ _ => id) fun _ _ => id

theorem perform_moves (hk : Strategy.Keeps d R)
    (hd : (work z).1.transaction.driver = d) (c : Call) :
    Triple c.perform z (fun _ z' => Worker.Moves R (work z) (work z'))
      (fun _ z' => Worker.Moves R (work z) (work z')) := by
  have hsame : Worker.Moves R (work z) (work z) := .refl _
  have hletsGo {β : Type} {a : Execute σ β} (h : Triple a (unit z)
      (fun _ y' => Worker.LetsGo R (work z) (Executor.work y'))
      (fun _ y' => Worker.LetsGo R (work z) (Executor.work y'))) :
      Triple (onExecutor a) z (fun _ z' => Worker.Moves R (work z) (work z'))
        (fun _ z' => Worker.Moves R (work z) (work z')) :=
    onExecutor_moves rfl (h.mono (fun _ _ h => h.moves) fun _ _ h => h.moves)
  have hlist (id : String) (argument : Argument) (bounds : RowBounds) :
      Triple (Session.selectList id argument bounds) z
        (fun _ z' => Worker.Moves R (work z) (work z'))
        (fun _ z' => Worker.Moves R (work z) (work z')) :=
    bind_statement (fun s _ => onExecutor_moves rfl
      (Executor.query_moves (y := unit z) hk hd s argument bounds))
      fun _ _ => hsame
  have hclose : Triple Session.close z (fun _ z' => Worker.Moves R (work z) (work z'))
      (fun _ z' => Worker.Moves R (work z) (work z')) :=
    bind_isRequired (.bind (hletsGo (Executor.close_letsGo (y := unit z) hk hd _))
      fun _ _ h => .modify h)
  cases c with
  | selectList id argument bounds => exact (hlist id argument bounds).returning (fun _ h => h) _
  | selectOne id argument =>
    refine .bind (.bind (hlist id argument .unbounded) fun rows z' h => ?_) fun _ _ h => .pure h
    split
    · exact .pure h
    · exact .pure h
    · exact .throw h
  | handOut id argument bounds enough =>
    refine Triple.returning (P := fun z' => Worker.Moves R (work z) (work z'))
      (bind_statement (fun s _ => ?_) fun _ _ => hsame) (fun _ h => h) _
    exact onExecutor_moves rfl (Executor.handOut_moves (y := unit z) hk hd s argument bounds enough)
  | update id argument =>
    refine Triple.returning (P := fun z' => Worker.Moves R (work z) (work z'))
      (bind_statement (fun s _ => .bind_modify ?_) fun _ _ => hsame) (fun _ h => h) _
    exact onExecutor_moves rfl (Executor.update_moves (y := unit z) hk hd s argument)
  | flush => exact (hletsGo (Executor.flush_letsGo (y := unit z) hk hd)).returning (fun _ h => h) _
  | commit force =>
    exact (perform_commit_letsGo hk hd force).mono (fun _ _ h => h.moves) fun _ _ h => h.moves
  | rollback force =>
    exact .bind (bind_isRequired (.bind (hletsGo (Executor.rollback_letsGo (y := unit z) hk hd _))
      fun _ _ h => .modify h)) fun _ _ h => .pure h
  | clearCache =>
    exact (onExecutor_moves rfl Executor.clearLocalCache_moves).returning (fun _ h => h) _
  | close => exact hclose.returning (fun _ h => h) _
  | drop =>
    refine Triple.returning (P := fun z' => Worker.Moves R (work z) (work z')) (.bind_get ?_)
      (fun _ h => h) _
    cases z.1.isClosed with
    | true => exact .pure hsame
    | false => exact hclose

end Call

-- ---------------------------------------------------------------------------
-- Journals
-- ---------------------------------------------------------------------------

abbrev Channel.Notes : Channel σ → Channel σ → Prop :=
  Order.Preimage Channel.journal (· <+: ·)

theorem Driver.keeps_notes (d : Driver σ) : d.Keeps Channel.Notes := by
  have hdrive {β : Type} (a : Action σ β) : (Channel.drive a).Respects Channel.Notes :=
    fun c => List.prefix_refl c.journal
  have hrecord (event : KeyEvent) :
      (Channel.record event : Action (Channel σ) Nat).Respects Channel.Notes :=
    fun c => List.prefix_append c.journal [event]
  have hopen : d.KeepsOpen Channel.Notes :=
    ⟨fun _ _ => hdrive _, fun _ => hdrive _, fun _ => hdrive _, fun _ => hdrive _,
      fun _ => hdrive _, hrecord⟩
  exact ⟨hopen, fun _ _ => hdrive _, fun _ => hdrive _, hdrive _, hdrive _⟩

theorem Call.perform_notes (c : Call) :
    (c.perform : SessionCall σ Reply).Respects fun z z' => z.2.journal <+: z'.2.journal :=
  .of_triple fun z => (perform_moves (z := z) (Driver.keeps_notes _).strategy rfl c).mono
    (fun _ _ h => h.strategy.2) fun _ _ h => h.strategy.2

end MappedSql
