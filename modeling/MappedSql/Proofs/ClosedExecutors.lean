import MappedSql.Proofs.Recordings

/-!
# Closed executors

Once an executor is closed, its worker refuses all work, and nothing reaches the database any
more. The worker is not the first to be asked, though. A query binds its statement before, and
may fail there. The result under a key is looked up in the cache of the statement before, and
may be found there.
-/

namespace MappedSql

variable {σ α : Type}

-- ---------------------------------------------------------------------------
-- Steps amid others
-- ---------------------------------------------------------------------------

section
variable {ι τ : Type} {step : ι → τ × σ → τ × σ}

/-- What one part of a state becomes in steps between which others change the rest as they like:
each step comes with the rest that it finds. -/
def amid (step : ι → τ × σ → τ × σ) (t : τ) (steps : List (σ × ι)) : τ :=
  steps.foldl (fun t (s, i) => (step i (t, s)).1) t

theorem amid_append (t : τ) (before after : List (σ × ι)) :
    amid step t (before ++ after) = amid step (amid step t before) after :=
  List.foldl_append

theorem amid_induction {P : τ → Prop} {steps : List (σ × ι)} {t : τ} (h : P t)
    (hstep : ∀ s i, (s, i) ∈ steps → ∀ t, P t → P (step i (t, s)).1) :
    P (amid step t steps) := by
  induction steps generalizing t with
  | nil => exact h
  | cons first rest ih =>
    obtain ⟨s, i⟩ := first
    have hfirst : P (step i (t, s)).1 := hstep s i List.mem_cons_self t h
    exact ih hfirst fun s i hm => hstep s i (List.mem_cons_of_mem _ hm)

end

theorem Action.outcome_modifyGet (g : σ → α × σ) (s : σ) :
    (modifyGet g : Action σ α).outcome s = (.ok (g s).1, (g s).2) := rfl

-- ---------------------------------------------------------------------------
-- Overlays that hold nothing
-- ---------------------------------------------------------------------------

namespace Overlays

variable {κ β : Type}

/-- The overlays hold nothing for their caches, though they may clear them. -/
def Hollow (os : Overlays κ β) : Prop :=
  ∀ entry ∈ os, entry.2.writes = [] ∧ entry.2.removals = []

def stale (os : Overlays κ β) : List CacheRef :=
  (os.filter (·.2.clears)).map (·.2.target)

variable {os : Overlays κ β}

theorem hollow_rollback : os.rollback.Hollow := by
  intro entry hm
  obtain ⟨⟨id, o⟩, -, rfl⟩ := List.mem_map.mp hm
  exact ⟨rfl, rfl⟩

theorem stale_rollback : os.rollback.stale = [] := by
  simp [stale, rollback, Overlay.reset, List.filter_map, Function.comp_def]

theorem Hollow.clear (h : os.Hollow) (r : CacheRef) : (os.clear r).Hollow := by
  intro entry hm
  rcases Keyed.mem_put hm with hm | rfl
  · exact h entry hm
  · exact ⟨rfl, rfl⟩

theorem mem_stale_clear {r q : CacheRef} (h : q ∈ (os.clear r).stale) :
    q ∈ os.stale ∨ q = (os.overlay r).target := by
  obtain ⟨entry, hm, rfl⟩ := List.mem_map.mp h
  obtain ⟨hm, hc⟩ := List.mem_filter.mp hm
  rcases Keyed.mem_put hm with hm | rfl
  · exact .inl (List.mem_map.mpr ⟨entry, List.mem_filter.mpr ⟨hm, hc⟩, rfl⟩)
  · exact .inr rfl

variable [BEq κ]

theorem Hollow.commit (h : os.Hollow) (p : CachePool κ β) :
    (os.commit p).2 = os.stale.foldl CachePool.clear p := by
  unfold Overlays.commit stale
  dsimp only
  induction os generalizing p with
  | nil => rfl
  | cons first rest ih =>
    obtain ⟨id, o⟩ := first
    obtain ⟨hwrites, hremovals⟩ : o.writes = [] ∧ o.removals = [] := h _ List.mem_cons_self
    have hrest : Hollow rest := fun entry hm => h entry (List.mem_cons_of_mem _ hm)
    have hchanges : o.applyTo = fun c => if o.clears then c.clear else c := by
      funext c
      simp [Overlay.applyTo, hwrites, hremovals]
    rw [List.foldl_cons, ih hrest]
    cases hc : o.clears with
    | true => simp [hc, hchanges, Overlay.commit, CachePool.clear]
    | false =>
      have hsame : (o.commit p).2 = p := by
        simp only [Overlay.commit, hchanges, hc, CachePool.modify, Bool.false_eq_true, if_false]
        exact congrArg CachePool.mk (List.modify_id ..)
      rw [hsame]
      simp [hc]

end Overlays

-- ---------------------------------------------------------------------------
-- Closed workers
-- ---------------------------------------------------------------------------

namespace Worker

theorem close_closes {x : Worker σ × Channel σ} (force : Bool)
    {E : Error → Worker σ × Channel σ → Prop} :
    Triple (close force) x (fun _ x' => x'.1.isClosed = true) E := by
  refine bind_current ?_
  cases hc : x.1.isClosed with
  | true => exact .pure hc
  | false =>
    refine .bind (P := fun _ _ => True) (.attempt ?_) fun _ _ _ => .modify rfl
    unfold Triple
    split <;> trivial

variable {x : Worker σ × Channel σ} (hc : x.1.isClosed = true)
include hc

theorem outcome_ensureOpen {f : Unit → Work σ α} :
    (ensureOpen >>= f).outcome x = (.error .executorClosed, x) := by
  have hensure : (ensureOpen : Work σ Unit).outcome x = (.error .executorClosed, x) := by
    simp [ensureOpen, current, Action.outcome_bind, hc]
  rw [Action.outcome_bind, hensure]

theorem outcome_unless {a : Work σ Unit} :
    Action.outcome (do unless (← current).isClosed do a) x = (.ok (), x) := by
  simp [current, Action.outcome_bind, hc]

end Worker

-- ---------------------------------------------------------------------------
-- Closed executors
-- ---------------------------------------------------------------------------

namespace Executor

def overlaid (f : Overlays CacheKey ResultSet → Overlays CacheKey ResultSet)
    (y : Executor σ × World σ) : Executor σ × World σ :=
  ({ y.1 with overlays := y.1.overlays.map f }, y.2)

def flushedFor (s : Statement) (os : Overlays CacheKey ResultSet) : Overlays CacheKey ResultSet :=
  match s.cache with
  | some r => if s.flushesCache then os.clear r else os
  | none => os

def published (y : Executor σ × World σ) : Executor σ × World σ :=
  match y.1.overlays with
  | none => y
  | some os => ({ y.1 with overlays := some os.rollback },
      { y.2 with caches := (os.commit y.2.caches).2 })

/-- What is found for a query before the worker is asked: the result under the key, in the cache
of the statement or in the overlay on it. Where it must not be kept, that is said instead. -/
def remembered (y : Executor σ × World σ) (s : Statement) (key : CacheKey)
    (bound : BoundStatement) : Except Error (Option ResultSet) := do
  match y.1.overlays, s.cache with
  | some os, some r =>
    if s.usesCache then
      checkCacheable s bound
      return ((flushedFor s os).get y.2.caches r key).1
    else return none
  | _, _ => return none

def orClosed (found : Except Error (Option ResultSet)) : Except Error ResultSet := do
  match ← found with
  | some rows => return rows
  | none => throw .executorClosed

def Blank (e : Executor σ) : Prop :=
  ∀ os, e.overlays = some os → os.Hollow ∧ os.stale = []

theorem overlaid_id (y : Executor σ × World σ) : overlaid (fun os => os) y = y := by
  unfold overlaid
  rw [Option.map_id']

theorem outcome_flushCacheFor (s : Statement) (y : Executor σ × World σ) :
    (flushCacheFor s).outcome y = (.ok (), overlaid (flushedFor s) y) := by
  unfold flushCacheFor flushedFor
  cases s.cache with
  | none => simp [overlaid_id]
  | some r =>
    cases s.flushesCache with
    | true => rfl
    | false => simp [overlaid_id]

theorem outcome_publish (y : Executor σ × World σ) : publish.outcome y = (.ok (), published y) := by
  obtain ⟨e, w⟩ := y
  unfold publish published
  rw [Action.outcome_modify]
  cases ho : e.overlays <;> simp [ho, Overlays.commit]

variable {y : Executor σ × World σ}

theorem isClosed_published : (published y).1.isClosed = y.1.isClosed := by
  unfold published
  cases y.1.overlays <;> rfl

theorem outcome_onWorker {a : Work σ α} {r : Except Error α}
    (h : a.outcome (work y) = (r, work y)) : (onWorker a).outcome y = (r, y) := by
  unfold onWorker
  rw [Action.outcome_within]
  change ((a.outcome (work y)).1, withWork y (a.outcome (work y)).2) = (r, y)
  rw [h]
  rfl

theorem blank_retracted : (overlaid (·.rollback) y).1.Blank := by
  intro os hos
  obtain ⟨os₀, -, rfl⟩ := Option.map_eq_some_iff.mp hos
  exact ⟨Overlays.hollow_rollback, Overlays.stale_rollback⟩

theorem blank_published : (published y).1.Blank := by
  intro os hos
  unfold published at hos
  cases ho : y.1.overlays with
  | none =>
    simp only [ho] at hos
    cases hos
  | some os₀ =>
    simp only [ho] at hos
    cases hos
    exact ⟨Overlays.hollow_rollback, Overlays.stale_rollback⟩

/-- However it ends its transaction, an executor that was closed has nothing left to publish. -/
theorem close_closes (force : Bool) {E : Error → Executor σ × World σ → Prop} :
    Triple (close force) y (fun _ y' => y'.1.isClosed = true ∧ y'.1.Blank) E := by
  have hworker (y₁ : Executor σ × World σ) (hb : y₁.1.Blank) :
      Triple (onWorker (Worker.close force)) y₁ (fun _ y' => y'.1.isClosed = true ∧ y'.1.Blank) E :=
    onWorker_ok (Worker.close_closes force (E := fun _ _ => False)) (fun _ _ hc => ⟨hc, hb⟩)
      fun _ _ => False.elim
  cases force with
  | true => exact .bind_modify (hworker _ blank_retracted)
  | false =>
    refine .bind (P := fun _ y₁ => y₁.1.Blank) ?_ fun _ y₁ hb => hworker y₁ hb
    unfold Triple
    rw [outcome_publish]
    exact blank_published

theorem outcome_refused (hc : y.1.isClosed = true) {f : Unit → Work σ α} :
    (onWorker (Worker.ensureOpen >>= f)).outcome y = (.error .executorClosed, y) :=
  outcome_onWorker (Worker.outcome_ensureOpen (x := work y) hc)

theorem outcome_spared (hc : y.1.isClosed = true) {a : Work σ Unit} :
    (onWorker (do unless (← Worker.current).isClosed do a)).outcome y = (.ok (), y) :=
  outcome_onWorker (Worker.outcome_unless (x := work y) hc)

section
variable (hc : y.1.isClosed = true)
include hc

theorem outcome_update (s : Statement) (argument : Argument) :
    (update s argument).outcome y = (.error .executorClosed, overlaid (flushedFor s) y) := by
  unfold update
  rw [Action.outcome_bind, outcome_flushCacheFor]
  exact outcome_refused (y := overlaid (flushedFor s) y) hc

theorem outcome_handOut (s : Statement) (argument : Argument) (bounds : RowBounds)
    (enough : Nat → Row → Bool) :
    (handOut s argument bounds enough).outcome y =
      (.error .executorClosed, overlaid (flushedFor s) y) := by
  unfold handOut
  rw [Action.outcome_bind, outcome_flushCacheFor]
  exact outcome_refused (y := overlaid (flushedFor s) y) hc

theorem outcome_key (s : Statement) (bounds : RowBounds) (bound : BoundStatement) :
    (key s bounds bound).outcome y = (.error .executorClosed, y) :=
  outcome_refused hc

theorem outcome_query (s : Statement) (argument : Argument) (bounds : RowBounds) :
    (query s argument bounds).outcome y =
      (s.bound argument >>= fun _ => .error .executorClosed, y) := by
  unfold query
  rw [Action.outcome_bind, Action.outcome_ofExcept]
  cases s.bound argument with
  | error e => rfl
  | ok bound =>
    dsimp only
    rw [Action.outcome_bind, outcome_key hc]
    rfl

theorem outcome_flush : flush.outcome y = (.error .executorClosed, y) :=
  outcome_refused hc

theorem outcome_commit (required : Bool) :
    (commit required).outcome y = (.error .executorClosed, y) := by
  have hworker : (onWorker (Worker.commit required)).outcome y = (.error .executorClosed, y) :=
    outcome_refused hc
  unfold commit
  rw [Action.outcome_bind, hworker]

theorem outcome_rollback (required : Bool) :
    (rollback required).outcome y =
      (.ok (), if required then overlaid (·.rollback) y else y) := by
  have hworker : (onWorker (Worker.rollback required)).outcome y = (.ok (), y) :=
    outcome_spared hc
  unfold rollback
  rw [Action.outcome_bind, Action.outcome_attempt, hworker]
  cases required <;> rfl

theorem outcome_clearLocalCache : clearLocalCache.outcome y = (.ok (), y) :=
  outcome_spared hc

theorem outcome_close (force : Bool) :
    (close force).outcome y = (.ok (), if force then overlaid (·.rollback) y else published y) := by
  unfold close
  cases force with
  | true => exact outcome_spared (y := overlaid (·.rollback) y) hc
  | false =>
    rw [if_neg Bool.false_ne_true, Action.outcome_bind, outcome_publish]
    refine outcome_spared (y := published y) ?_
    rw [isClosed_published, hc]

end

-- ---------------------------------------------------------------------------
-- Answers
-- ---------------------------------------------------------------------------

/-- How an action ends that does nothing at the worker or the database. -/
structure Answers (a : Execute σ α) (y : Executor σ × World σ) (r : Except Error α) : Prop where
  answer : (a.outcome y).1 = r
  idles : Idles y (a.outcome y).2

namespace Answers

variable {β : Type} {a : Execute σ α} {f : α → Execute σ β} {r : Except Error α}
  {r' : Except Error β} {value : α} {y y₁ : Executor σ × World σ}

theorem of_outcome (h : a.outcome y = (r, y₁)) (hi : Idles y y₁) : Answers a y r := by
  refine ⟨?_, ?_⟩ <;> rw [h]
  exact hi

theorem bind (h : a.outcome y = (.ok value, y₁)) (hi : Idles y y₁) (hf : Answers (f value) y₁ r') :
    Answers (a >>= f) y r' := by
  have hbind : (a >>= f).outcome y = (f value).outcome y₁ := by rw [Action.outcome_bind, h]
  refine ⟨?_, ?_⟩ <;> rw [hbind]
  · exact hf.answer
  · exact Eq.trans hf.idles hi

theorem bind_error {e : Error} (h : Answers a y (.error e)) :
    Answers (a >>= f) y (.error e) := by
  have hbind : (a >>= f).outcome y = (.error e, (a.outcome y).2) := by
    rw [Action.outcome_bind]
    rcases ho : a.outcome y with ⟨r, y₁⟩
    have hr : r = .error e := by simpa only [ho] using h.answer
    rw [hr]
  exact .of_outcome hbind h.idles

end Answers

theorem outcome_lookup {os : Overlays CacheKey ResultSet} (ho : y.1.overlays = some os)
    (r : CacheRef) (key : CacheKey) :
    (lookup r key).outcome y = (.ok (os.get y.2.caches r key).1,
      { y.1 with overlays := some (os.get y.2.caches r key).2.1 },
      { y.2 with caches := (os.get y.2.caches r key).2.2 }) := by
  obtain ⟨e, w⟩ := y
  unfold lookup
  rw [Action.outcome_modifyGet]
  dsimp only at ho ⊢
  rw [ho]

theorem outcome_cacheOf (s : Statement) :
    (cacheOf s).outcome y = (.ok (if y.1.overlays.isSome then s.cache else none), y) := rfl

section
variable {s : Statement} {key : CacheKey} {bound : BoundStatement}

theorem remembered_nothing
    (h : y.1.overlays = none ∨ s.cache = none ∨ s.usesCache = false) :
    remembered y s key bound = .ok none := by
  unfold remembered
  rcases h with ho | hs | hu
  · rw [ho]
    rfl
  · rw [hs]
    cases y.1.overlays <;> rfl
  · rw [hu]
    cases y.1.overlays <;> cases s.cache <;> rfl

theorem remembered_found {os : Overlays CacheKey ResultSet} {r : CacheRef}
    (ho : y.1.overlays = some os) (hs : s.cache = some r) (hu : s.usesCache = true) :
    remembered y s key bound = (checkCacheable s bound).map
      fun _ => ((flushedFor s os).get y.2.caches r key).1 := by
  simp only [remembered, ho, hs, hu]
  cases checkCacheable s bound <;> rfl

end

theorem queryBound_answers (hc : y.1.isClosed = true) (s : Statement) (bounds : RowBounds)
    (key : CacheKey) (bound : BoundStatement) :
    Answers (queryBound s bounds key bound) y (orClosed (remembered y s key bound)) := by
  have hworker (y₁ : Executor σ × World σ) (hi : Idles y y₁) :
      Answers (onWorker (Worker.queryBound s bounds key bound)) y₁ (.error .executorClosed) := by
    have hc₁ : y₁.1.isClosed = true := (congrArg (·.1.isClosed) hi).trans hc
    exact .of_outcome (outcome_refused hc₁) rfl
  unfold queryBound
  refine .bind (outcome_cacheOf s) rfl ?_
  cases ho : y.1.overlays with
  | none =>
    rw [remembered_nothing (.inl ho)]
    exact hworker y rfl
  | some os =>
    cases hs : s.cache with
    | none =>
      rw [remembered_nothing (.inr (.inl hs))]
      exact hworker y rfl
    | some r =>
      refine .bind (outcome_flushCacheFor s y) rfl ?_
      have hflushed : (overlaid (flushedFor s) y).1.overlays = some (flushedFor s os) := by
        simp [overlaid, ho]
      cases hu : s.usesCache with
      | false =>
        rw [remembered_nothing (.inr (.inr hu))]
        exact hworker _ rfl
      | true =>
        cases hk : checkCacheable s bound with
        | error e =>
          rw [remembered_found ho hs hu, hk]
          exact .of_outcome (Action.outcome_ofExcept (.error e) (overlaid (flushedFor s) y)) rfl
        | ok _ =>
          rw [remembered_found ho hs hu, hk]
          have hlookup : (lookup r key).outcome (overlaid (flushedFor s) y) =
              (.ok ((flushedFor s os).get y.2.caches r key).1, _) := outcome_lookup hflushed r key
          refine .bind (Action.outcome_ofExcept (.ok ()) (overlaid (flushedFor s) y)) rfl ?_
          refine .bind hlookup rfl ?_
          cases ((flushedFor s os).get y.2.caches r key).1 with
          | some hit => exact .of_outcome rfl rfl
          | none =>
            dsimp only
            exact .bind_error (hworker _ rfl)

/-- How an executor answers to work that it is closed to. It refuses all of it, but a query of a
statement that cannot be bound is told so instead, and a result that a cache holds, or an overlay
on it, is handed out to whoever has its key. -/
structure TurnsAway (y : Executor σ × World σ) : Prop where
  update : ∀ s argument, Answers (update s argument) y (.error .executorClosed)
  query : ∀ s argument bounds, Answers (query s argument bounds) y
    (s.bound argument >>= fun _ => .error .executorClosed)
  key : ∀ s bounds bound, Answers (key s bounds bound) y (.error .executorClosed)
  queryBound : ∀ s bounds key bound,
    Answers (queryBound s bounds key bound) y (orClosed (remembered y s key bound))
  handOut : ∀ s argument bounds enough,
    Answers (handOut s argument bounds enough) y (.error .executorClosed)
  flush : Answers flush y (.error .executorClosed)
  commit : ∀ required, Answers (commit required) y (.error .executorClosed)

theorem turnsAway_of_closed (hc : y.1.isClosed = true) : TurnsAway y where
  update s argument := .of_outcome (outcome_update hc s argument) rfl
  query s argument bounds := .of_outcome (outcome_query hc s argument bounds) rfl
  key s bounds bound := .of_outcome (outcome_key hc s bounds bound) rfl
  queryBound := queryBound_answers hc
  handOut s argument bounds enough := .of_outcome (outcome_handOut hc s argument bounds enough) rfl
  flush := .of_outcome (outcome_flush hc) rfl
  commit required := .of_outcome (outcome_commit hc required) rfl

end Executor

-- ---------------------------------------------------------------------------
-- Runs
-- ---------------------------------------------------------------------------

inductive Executor.Operation
  | request (r : Request)
  | key (s : Statement) (bounds : RowBounds) (bound : BoundStatement)
  | queryBound (s : Statement) (bounds : RowBounds) (key : CacheKey) (bound : BoundStatement)

def Strategy.Anything (_ _ : Strategy × Channel σ) : Prop :=
  True

instance : IsPreorder (Strategy × Channel σ) Strategy.Anything where
  refl _ := trivial
  trans _ _ _ _ _ := trivial

theorem Strategy.keeps_anything (d : Driver σ) : Strategy.Keeps d Anything where
  update _ _ := trivial
  query _ _ := trivial
  flush _ := trivial
  discard _ := trivial
  commit _ := trivial
  rollback _ := trivial

namespace Executor.Operation

def leave : Operation → Executor σ × World σ → Executor σ × World σ
  | .request r, y => (r.perform.outcome y).2
  | .key s bounds bound, y => ((Executor.key s bounds bound).outcome y).2
  | .queryBound s bounds known bound, y => ((Executor.queryBound s bounds known bound).outcome y).2

variable {y : Executor σ × World σ}

theorem leave_idles (hc : y.1.isClosed = true) (o : Operation) : Executor.Idles y (o.leave y) := by
  cases o with
  | request r =>
    have hmoves := Request.perform_moves (Strategy.keeps_anything _) rfl r (y := y)
    exact hmoves.state.closed hc
  | key s bounds bound => exact ((Executor.turnsAway_of_closed hc).key s bounds bound).idles
  | queryBound s bounds known bound =>
    exact ((Executor.turnsAway_of_closed hc).queryBound s bounds known bound).idles

theorem isClosed_leave (hc : y.1.isClosed = true) (o : Operation) :
    (o.leave y).1.isClosed = true :=
  (congrArg (·.1.isClosed) (leave_idles hc o)).trans hc

theorem leave_close (force : Bool) : (leave (.request (.close force)) y).1.isClosed = true :=
  Triple.state (.bind (Executor.close_closes force (E := fun _ y' => y'.1.isClosed = true))
    fun _ _ h => .pure h.1)

end Executor.Operation

namespace Executor

/-- However an executor came to be closed, and whatever was done since, by itself or by others to
the database and the caches, it turns work away. -/
theorem closed_executors_turn_work_away (c : Configuration) (t : Transaction σ)
    (type : ExecutorType) (before later : List (World σ × Operation)) (w₀ w : World σ)
    (force : Bool) :
    let e := amid Operation.leave (start c t type)
      (before ++ (w₀, .request (.close force)) :: later)
    e.isClosed = true ∧ TurnsAway (e, w) := by
  intro e
  have hc : e.isClosed = true := by
    have hrun : e = amid Operation.leave (Operation.leave (.request (.close force))
        (amid Operation.leave (start c t type) before, w₀)).1 later := amid_append ..
    rw [hrun]
    refine amid_induction (P := fun e : Executor σ => e.isClosed = true)
      (Operation.leave_close force) ?_
    intro w o _ e he
    exact Operation.isClosed_leave (y := (e, w)) he o
  exact ⟨hc, turnsAway_of_closed (y := (e, w)) hc⟩

end Executor

namespace Notes

def oneNote : Script where
  results := [("select n from note", .ofValues ["n"] [[.int 1]])]

def readLate : Execute Recording ResultSet := do
  let bound ← Action.ofExcept (read.bound .null)
  let key ← Executor.key read .unbounded bound
  let _ ← Executor.query read .null .unbounded
  Executor.commit false
  Executor.close false
  Executor.queryBound read .unbounded key bound

end Notes

namespace Executor

theorem closed_notes_are_recalled :
    let (rows, e, _) := Notes.readLate.outcome
      (Request.opened Notes.oneNote.driver Notes.configuration none .simple {} Notes.caches)
    e.isClosed = true ∧ rows.toOption.map (·.rows.length) = some 1 := by
  decide +kernel

end Executor

end MappedSql
