import MappedSql.Proofs.Requests
import MappedSql.Proofs.Twins

/-!
# Sessions in lockstep

Two sessions that do the same calls on drivers of their own. When whatever their strategies do
ends alike, with the same value or the same error, then so does every call, and both sessions
stay in step: a failure of the driver of one is a failure of the driver of the other.
-/

namespace MappedSql

-- ---------------------------------------------------------------------------
-- Actions in lockstep
-- ---------------------------------------------------------------------------

section
variable {σ τ σ' τ' α β ι : Type}

/-- Two actions end alike, with one value or with one error, in states that are related. -/
def Lockstep (R : σ → τ → Prop) (a : Action σ α) (b : Action τ α) (s : σ) (t : τ) : Prop :=
  Twin a b s t (fun value value' s' t' => value' = value ∧ R s' t') (fun _ => R) (fun _ => False)
    fun _ => False

namespace Lockstep

variable {R R' : σ → τ → Prop} {a : Action σ α} {b : Action τ α} {f : α → Action σ β}
  {g : α → Action τ β} {s : σ} {t : τ}

theorem outcomes : Lockstep R a b s t ↔
    (b.outcome t).1 = (a.outcome s).1 ∧ R (a.outcome s).2 (b.outcome t).2 := by
  unfold Lockstep Twin
  rcases a.outcome s with ⟨e | value, s'⟩ <;> rcases b.outcome t with ⟨e' | value', t'⟩
  · simp [eq_comm]
  · simp
  · simp
  · simp

theorem mono (h : Lockstep R a b s t) (hR : ∀ s t, R s t → R' s t) : Lockstep R' a b s t :=
  Twin.mono h (fun _ _ _ _ ⟨he, hr⟩ => ⟨he, hR _ _ hr⟩) fun _ => hR

theorem bind (h : Lockstep R a b s t)
    (hf : ∀ value s' t', R s' t' → Lockstep R (f value) (g value) s' t') :
    Lockstep R (a >>= f) (b >>= g) s t := by
  refine Twin.bind h ?_
  rintro _ value s' t' ⟨rfl, hr⟩
  exact hf value s' t' hr

theorem pure (value : α) (h : R s t) :
    Lockstep R (Pure.pure value : Action σ α) (Pure.pure value) s t :=
  Twin.pure ⟨rfl, h⟩

theorem throw (e : Error) (h : R s t) :
    Lockstep R (throw e : Action σ α) (throw e) s t :=
  Twin.throw h

theorem ofExcept (r : Except Error α) (h : R s t) :
    Lockstep R (Action.ofExcept r) (Action.ofExcept r) s t := by
  cases r with
  | ok value => exact pure value h
  | error e => exact throw e h

theorem modify {u : σ → σ} {v : τ → τ} (h : R (u s) (v t)) :
    Lockstep R (modify u : Action σ Unit) (modify v) s t :=
  Twin.modify ⟨rfl, h⟩

/-- What one does alone, and the other does not see. -/
theorem bind_ahead {a : Action σ ι} {f : ι → Action σ β} {b : Action τ β} {P : ι → σ → Prop}
    (h : Triple a s P fun _ _ => False)
    (hf : ∀ value s', P value s' → Lockstep R (f value) b s' t) : Lockstep R (a >>= f) b s t := by
  unfold Triple at h
  rw [outcomes, Action.outcome_bind]
  rcases ho : a.outcome s with ⟨e | value, s'⟩
  · rw [ho] at h
    exact h.elim
  · rw [ho] at h
    exact outcomes.mp (hf value s' h)

theorem ahead {value : α}
    (h : Triple a s (fun value' s' => value' = value ∧ R s' t) fun _ _ => False) :
    Lockstep R a (Pure.pure value) s t := by
  unfold Triple at h
  rw [outcomes, Action.outcome_pure]
  rcases ho : a.outcome s with ⟨e | value', s'⟩
  · rw [ho] at h
    exact h.elim
  · rw [ho] at h
    obtain ⟨rfl, hr⟩ := h
    exact ⟨rfl, hr⟩

theorem attempt_then {f : Except Error α → Action σ α} (h : Lockstep R' a b s t)
    (hf : ∀ r s' t', R' s' t' → Triple (f r) s' (fun value s'' => r = .ok value ∧ R s'' t')
      fun e s'' => r = .error e ∧ R s'' t') : Lockstep R (a.attempt >>= f) b s t := by
  obtain ⟨he, hr⟩ := outcomes.mp h
  have hend := hf (a.outcome s).1 _ _ hr
  unfold Triple at hend
  rw [outcomes, Action.outcome_bind, Action.outcome_attempt, he]
  dsimp only
  split at hend <;> rename_i ho <;> rw [ho] <;> exact hend

theorem attempt (h : Lockstep R a b s t) : Lockstep R a.attempt b.attempt s t := by
  obtain ⟨he, hr⟩ := outcomes.mp h
  rw [outcomes, Action.outcome_attempt, Action.outcome_attempt, he]
  exact ⟨rfl, hr⟩

theorem within {get : σ' → σ} {set : σ → σ' → σ'} {get' : τ' → τ} {set' : τ → τ' → τ'}
    {R' : σ' → τ' → Prop} {s : σ'} {t : τ'} (h : Lockstep R a b (get s) (get' t))
    (hR : ∀ s' t', R s' t' → R' (set s' s) (set' t' t)) :
    Lockstep R' (a.within get set) (b.within get' set') s t := by
  obtain ⟨he, hr⟩ := outcomes.mp h
  exact outcomes.mpr ⟨he, hR _ _ hr⟩

theorem returning (h : Lockstep R a b s t) (f : α → β) :
    Lockstep R (a >>= fun value => Pure.pure (f value)) (b >>= fun value => Pure.pure (f value))
      s t :=
  h.bind fun value _ _ hr => pure (f value) hr

/-- Two that are each in step with a third are in step with each other. -/
theorem span {υ : Type} {R : σ → υ → Prop} {R' : τ → υ → Prop} {c : Action υ α} {u : υ}
    (h : Lockstep R a c s u) (h' : Lockstep R' b c t u) :
    Lockstep (fun s t => ∃ u, R s u ∧ R' t u) a b s t := by
  obtain ⟨he, hr⟩ := outcomes.mp h
  obtain ⟨he', hr'⟩ := outcomes.mp h'
  exact outcomes.mpr ⟨he'.symm.trans he, _, hr, hr'⟩

end Lockstep

theorem Action.inTurn_lockstep {R : σ → τ → Prop} {f : ι → Action σ α} {g : ι → Action τ α}
    (h : ∀ i s t, R s t → Lockstep R (f i) (g i) s t) (is : List ι) {s : σ} {t : τ} (hr : R s t) :
    (inTurn g is t).1 = (inTurn f is s).1 ∧ R (inTurn f is s).2 (inTurn g is t).2 := by
  induction is generalizing s t with
  | nil => exact ⟨rfl, hr⟩
  | cons i rest ih =>
    obtain ⟨he, hi⟩ := Lockstep.outcomes.mp (h i s t hr)
    obtain ⟨hrest, hr'⟩ := ih hi
    simp only [inTurn, he, hrest]
    exact ⟨trivial, hr'⟩

end

-- ---------------------------------------------------------------------------
-- Strategies
-- ---------------------------------------------------------------------------

variable {σ τ α : Type}

/-- Whatever strategies do with two drivers ends alike and leaves them related, for statements
with some property. -/
structure Strategy.InStep (d : Driver σ) (d' : Driver τ) (S : Statement → Prop)
    (R : Strategy × Channel σ → Strategy × Channel τ → Prop) : Prop where
  update : ∀ {s t} e, S e.statement → R s t → Lockstep R (update e d) (update e d') s t
  query : ∀ {s t} e, R s t → Lockstep R (query e d) (query e d') s t
  flush : ∀ {s t}, R s t → Lockstep R (flush d) (flush d') s t
  discard : ∀ {s t}, R s t → Lockstep R (discard d) (discard d') s t
  commit : ∀ {s t}, R s t →
    Lockstep R (Channel.drive d.commit).onSecond (Channel.drive d'.commit).onSecond s t
  rollback : ∀ {s t}, R s t →
    Lockstep R (Channel.drive d.rollback).onSecond (Channel.drive d'.rollback).onSecond s t

-- ---------------------------------------------------------------------------
-- Workers
-- ---------------------------------------------------------------------------

variable {d : Driver σ} {d' : Driver τ} {S : Statement → Prop}
  {R : Strategy × Channel σ → Strategy × Channel τ → Prop} {c : Configuration}

structure Transaction.InStep (d : Driver σ) (d' : Driver τ) (t : Transaction σ)
    (t' : Transaction τ) : Prop where
  drivers : t.driver = d ∧ t'.driver = d'
  timeout : t'.timeout = t.timeout
  isClosed : t'.isClosed = t.isClosed

namespace Worker

/-- Workers that differ only in their drivers and in what their strategies hold. -/
structure InStep (d : Driver σ) (d' : Driver τ)
    (R : Strategy × Channel σ → Strategy × Channel τ → Prop) (c : Configuration)
    (x : Worker σ × Channel σ) (y : Worker τ × Channel τ) : Prop where
  configurations : x.1.configuration = c ∧ y.1.configuration = c
  transactions : x.1.transaction.InStep d d' y.1.transaction
  localCache : y.1.localCache = x.1.localCache
  strategies : R (x.1.strategy, x.2) (y.1.strategy, y.2)

abbrev Agree (d : Driver σ) (d' : Driver τ)
    (R : Strategy × Channel σ → Strategy × Channel τ → Prop) (c : Configuration) (a : Work σ α)
    (b : Work τ α) (x : Worker σ × Channel σ) (y : Worker τ × Channel τ) : Prop :=
  Lockstep (InStep d d' R c) a b x y

variable {x : Worker σ × Channel σ} {y : Worker τ × Channel τ} {t : Transaction σ}
  {t' : Transaction τ}

theorem InStep.isClosed (h : InStep d d' R c x y) : y.1.isClosed = x.1.isClosed :=
  h.transactions.isClosed

theorem InStep.execution (h : InStep d d' R c x y) (s : Statement) (bound : BoundStatement) :
    y.1.execution s bound = x.1.execution s bound := by
  simp only [Worker.execution, timeoutFor, Transaction.limit, h.configurations.1,
    h.configurations.2, h.transactions.timeout]

theorem bind_current_agree {f : Worker σ → Work σ α} {g : Worker τ → Work τ α}
    (h : Agree d d' R c (f x.1) (g y.1) x y) :
    Agree d d' R c (current >>= f) (current >>= g) x y := by
  rw [Agree, Lockstep.outcomes, Action.outcome_bind, Action.outcome_bind]
  exact Lockstep.outcomes.mp h

theorem bind_connection_agree {f : Driver σ → Work σ α} {g : Driver τ → Work τ α}
    (h : InStep d d' R c x y) (ht : t.InStep d d' t')
    (hf : Agree d d' R c (f d) (g d') x y) :
    Agree d d' R c (onDatabase t.connection >>= f) (onDatabase t'.connection >>= g) x y := by
  have hc : t'.isClosed = t.isClosed := ht.isClosed
  rw [Agree, Lockstep.outcomes, Action.outcome_bind, Action.outcome_bind]
  cases ho : t.isClosed with
  | true =>
    rw [ho] at hc
    simp only [onDatabase, Channel.drive, Action.onSecond, Action.outcome_within,
      Transaction.connection, ho, hc, if_true, Action.outcome_throw]
    exact ⟨trivial, h⟩
  | false =>
    rw [ho] at hc
    simp only [onDatabase, Channel.drive, Action.onSecond, Action.outcome_within,
      Transaction.connection, ho, hc, Bool.false_eq_true, if_false, Action.outcome_pure,
      ht.drivers.1, ht.drivers.2]
    exact Lockstep.outcomes.mp hf

theorem onStrategy_agree {a : Action (Strategy × Channel σ) α} {b : Action (Strategy × Channel τ) α}
    (h : InStep d d' R c x y)
    (ha : Lockstep R a b (x.1.strategy, x.2) (y.1.strategy, y.2)) :
    Agree d d' R c (onStrategy a) (onStrategy b) x y := by
  obtain ⟨he, hr⟩ := Lockstep.outcomes.mp ha
  exact Lockstep.outcomes.mpr ⟨he, { h with strategies := hr }⟩

theorem onDatabase_agree {a : Action σ α} {b : Action τ α} (h : InStep d d' R c x y)
    (ha : Lockstep R (Channel.drive a).onSecond (Channel.drive b).onSecond (x.1.strategy, x.2)
      (y.1.strategy, y.2)) : Agree d d' R c (onDatabase a) (onDatabase b) x y := by
  obtain ⟨he, hr⟩ := Lockstep.outcomes.mp ha
  exact Lockstep.outcomes.mpr ⟨he, { h with strategies := hr }⟩

theorem onConnection_agree {f : Driver σ → Action σ Unit} {g : Driver τ → Action τ Unit}
    (h : InStep d d' R c x y) (ht : t.InStep d d' t')
    (hf : Lockstep R (Channel.drive (f d)).onSecond (Channel.drive (g d')).onSecond
      (x.1.strategy, x.2) (y.1.strategy, y.2)) :
    Agree d d' R c (onDatabase (t.connection >>= f)) (onDatabase (t'.connection >>= g)) x y := by
  have hc : t'.isClosed = t.isClosed := ht.isClosed
  cases ho : t.isClosed with
  | true =>
    rw [ho] at hc
    simp only [Transaction.connection, ho, hc, if_true]
    exact Lockstep.outcomes.mpr ⟨rfl, h⟩
  | false =>
    rw [ho] at hc
    simp only [Transaction.connection, ho, hc, Bool.false_eq_true, if_false, pure_bind,
      ht.drivers.1, ht.drivers.2]
    exact onDatabase_agree h hf

theorem ensureOpen_agree (h : InStep d d' R c x y) :
    Agree d d' R c ensureOpen ensureOpen x y := by
  refine bind_current_agree ?_
  rw [h.isClosed]
  cases x.1.isClosed with
  | true => exact .throw _ h
  | false => exact .pure _ h

theorem forget_agree (h : InStep d d' R c x y) : Agree d d' R c forget forget x y :=
  .modify { h with localCache := rfl }

theorem forgetFor_agree (h : InStep d d' R c x y) (s : Statement) :
    Agree d d' R c (forgetFor s) (forgetFor s) x y := by
  unfold forgetFor
  cases s.flushesCache with
  | true => exact forget_agree h
  | false => exact .pure _ h

theorem key_agree (h : InStep d d' R c x y) (s : Statement) (bounds : RowBounds)
    (bound : BoundStatement) : Agree d d' R c (key s bounds bound) (key s bounds bound) x y := by
  refine (ensureOpen_agree h).bind ?_
  intro _ x₁ y₁ h₁
  refine bind_current_agree ?_
  rw [h₁.configurations.1, h₁.configurations.2]
  exact .ofExcept _ h₁

theorem clearLocalCache_agree (h : InStep d d' R c x y) :
    Agree d d' R c clearLocalCache clearLocalCache x y := by
  refine bind_current_agree ?_
  rw [h.isClosed]
  cases x.1.isClosed with
  | true => exact .pure _ h
  | false => exact forget_agree h

section
variable (hk : Strategy.InStep d d' S R) (h : InStep d d' R c x y)
include hk h

theorem update_agree {s : Statement} (hs : S s) (argument : Argument) :
    Agree d d' R c (update s argument) (update s argument) x y := by
  refine (ensureOpen_agree h).bind ?_
  intro _ x₁ y₁ h₁
  refine (forget_agree h₁).bind ?_
  intro _ x₂ y₂ h₂
  refine (Lockstep.ofExcept _ h₂).bind ?_
  intro bound x₃ y₃ h₃
  refine bind_current_agree (bind_connection_agree h₃ h₃.transactions ?_)
  rw [h₃.execution s bound]
  exact onStrategy_agree h₃ (hk.update _ hs h₃.strategies)

theorem fetch_agree (s : Statement) (bounds : RowBounds) (bound : BoundStatement) :
    Agree d d' R c (fetch s bounds bound) (fetch s bounds bound) x y := by
  refine bind_current_agree (bind_connection_agree h h.transactions ?_)
  rw [h.execution s bound]
  exact (onStrategy_agree h (hk.query _ h.strategies)).returning _

theorem queryBound_agree (s : Statement) (bounds : RowBounds) (key : CacheKey)
    (bound : BoundStatement) :
    Agree d d' R c (queryBound s bounds key bound) (queryBound s bounds key bound) x y := by
  refine (ensureOpen_agree h).bind ?_
  intro _ x₁ y₁ h₁
  refine (forgetFor_agree h₁ s).bind ?_
  intro _ x₂ y₂ h₂
  refine bind_current_agree ?_
  rw [h₂.localCache]
  cases Keyed.get? x₂.1.localCache key with
  | some hit => exact .pure hit h₂
  | none =>
    refine (fetch_agree hk h₂ s bounds bound).bind ?_
    intro rows x₃ y₃ h₃
    have hput : Agree d d' R c
        (change fun w => { w with localCache := Keyed.put w.localCache key rows })
        (change fun w => { w with localCache := Keyed.put w.localCache key rows }) x₃ y₃ :=
      .modify { h₃ with localCache := congrArg (Keyed.put · key rows) h₃.localCache }
    refine hput.bind ?_
    intro _ x₄ y₄ h₄
    refine bind_current_agree ?_
    rw [h₄.configurations.1, h₄.configurations.2]
    split
    · exact (forget_agree h₄).bind fun _ _ _ h₅ => .pure rows h₅
    · exact .pure rows h₄

theorem handOut_agree (s : Statement) (argument : Argument) (bounds : RowBounds)
    (enough : Nat → Row → Bool) :
    Agree d d' R c (handOut s argument bounds enough) (handOut s argument bounds enough) x y := by
  refine (ensureOpen_agree h).bind ?_
  intro _ x₁ y₁ h₁
  refine (forgetFor_agree h₁ s).bind ?_
  intro _ x₂ y₂ h₂
  refine (Lockstep.ofExcept _ h₂).bind ?_
  intro bound x₃ y₃ h₃
  exact (fetch_agree hk h₃ s bounds bound).returning _

theorem flush_agree : Agree d d' R c flush flush x y := by
  refine (ensureOpen_agree h).bind ?_
  intro _ x₁ y₁ h₁
  refine bind_current_agree (bind_connection_agree h₁ h₁.transactions ?_)
  exact onStrategy_agree h₁ (hk.flush h₁.strategies)

theorem commit_agree (required : Bool) :
    Agree d d' R c (commit required) (commit required) x y := by
  refine (ensureOpen_agree h).bind ?_
  intro _ x₁ y₁ h₁
  refine (forget_agree h₁).bind ?_
  intro _ x₂ y₂ h₂
  refine (flush_agree hk h₂).bind ?_
  intro _ x₃ y₃ h₃
  cases required with
  | false => exact .pure _ h₃
  | true =>
    exact bind_current_agree (onConnection_agree h₃ h₃.transactions (hk.commit h₃.strategies))

theorem rollback_agree (required : Bool) :
    Agree d d' R c (rollback required) (rollback required) x y := by
  refine bind_current_agree ?_
  rw [h.isClosed]
  cases x.1.isClosed with
  | true => exact .pure _ h
  | false =>
    refine (forget_agree h).bind ?_
    intro _ x₁ y₁ h₁
    refine bind_current_agree ?_
    have hdiscard : Agree d d' R c
        (onDatabase x₁.1.transaction.connection >>= fun d => onStrategy (Strategy.discard d))
        (onDatabase y₁.1.transaction.connection >>= fun d => onStrategy (Strategy.discard d))
        x₁ y₁ :=
      bind_connection_agree h₁ h₁.transactions (onStrategy_agree h₁ (hk.discard h₁.strategies))
    refine hdiscard.attempt.bind ?_
    intro discarded x₂ y₂ h₂
    refine Lockstep.bind (Lockstep.attempt ?_) ?_
    · cases required with
      | false => exact .pure _ h₂
      | true => exact onConnection_agree h₂ h₁.transactions (hk.rollback h₂.strategies)
    · intro rolledBack x₃ y₃ h₃
      exact (Lockstep.ofExcept discarded h₃).bind fun _ _ _ h₄ => .ofExcept rolledBack h₄

theorem close_agree (force : Bool) : Agree d d' R c (close force) (close force) x y := by
  refine bind_current_agree ?_
  rw [h.isClosed]
  cases x.1.isClosed with
  | true => exact .pure _ h
  | false =>
    refine (rollback_agree hk h force).attempt.bind ?_
    intro _ x₁ y₁ h₁
    have ht : x₁.1.transaction.close.InStep d d' y₁.1.transaction.close :=
      ⟨h₁.transactions.drivers, h₁.transactions.timeout, rfl⟩
    exact .modify ⟨h₁.configurations, ht, rfl, h₁.strategies⟩

end

end Worker

-- ---------------------------------------------------------------------------
-- Executors
-- ---------------------------------------------------------------------------

namespace Executor

structure InStep (d : Driver σ) (d' : Driver τ)
    (R : Strategy × Channel σ → Strategy × Channel τ → Prop) (c : Configuration)
    (y : Executor σ × World σ) (z : Executor τ × World τ) : Prop where
  workers : Worker.InStep d d' R c (work y) (work z)
  overlays : z.1.overlays = y.1.overlays
  caches : z.2.caches = y.2.caches

abbrev Agree (d : Driver σ) (d' : Driver τ)
    (R : Strategy × Channel σ → Strategy × Channel τ → Prop) (c : Configuration) (a : Execute σ α)
    (b : Execute τ α) (y : Executor σ × World σ) (z : Executor τ × World τ) : Prop :=
  Lockstep (InStep d d' R c) a b y z

variable {y : Executor σ × World σ} {z : Executor τ × World τ}

theorem onWorker_agree {a : Work σ α} {b : Work τ α} (h : InStep d d' R c y z)
    (ha : Worker.Agree d d' R c a b (work y) (work z)) :
    Agree d d' R c (onWorker a) (onWorker b) y z :=
  Lockstep.within ha fun _ _ hw => ⟨hw, h.overlays, h.caches⟩

theorem changeOverlays_agree (h : InStep d d' R c y z)
    (f : Overlays CacheKey ResultSet → Overlays CacheKey ResultSet) :
    Agree d d' R c (changeOverlays f) (changeOverlays f) y z :=
  .modify ⟨h.workers, congrArg (Option.map f) h.overlays, h.caches⟩

theorem flushCacheFor_agree (h : InStep d d' R c y z) (s : Statement) :
    Agree d d' R c (flushCacheFor s) (flushCacheFor s) y z := by
  unfold flushCacheFor
  cases s.cache with
  | none => exact .pure _ h
  | some r =>
    cases s.flushesCache with
    | false => exact .pure _ h
    | true => exact changeOverlays_agree h _

theorem lookup_agree (h : InStep d d' R c y z) (r : CacheRef) (key : CacheKey) :
    Agree d d' R c (lookup r key) (lookup r key) y z := by
  obtain ⟨⟨worker, overlays⟩, channel, caches⟩ := y
  obtain ⟨⟨worker', overlays'⟩, channel', caches'⟩ := z
  obtain ⟨hw, rfl, rfl⟩ := h
  cases overlays' with
  | none => exact Twin.modifyGet ⟨rfl, hw, rfl, rfl⟩
  | some os => exact Twin.modifyGet ⟨rfl, hw, rfl, rfl⟩

theorem publish_agree (h : InStep d d' R c y z) : Agree d d' R c publish publish y z := by
  obtain ⟨⟨worker, overlays⟩, channel, caches⟩ := y
  obtain ⟨⟨worker', overlays'⟩, channel', caches'⟩ := z
  obtain ⟨hw, rfl, rfl⟩ := h
  cases overlays' with
  | none => exact .modify ⟨hw, rfl, rfl⟩
  | some os => exact .modify ⟨hw, rfl, rfl⟩

theorem retract_agree (h : InStep d d' R c y z) : Agree d d' R c retract retract y z :=
  changeOverlays_agree h _

theorem clearLocalCache_agree (h : InStep d d' R c y z) :
    Agree d d' R c clearLocalCache clearLocalCache y z :=
  onWorker_agree h (Worker.clearLocalCache_agree h.workers)

section
variable (hk : Strategy.InStep d d' S R) (h : InStep d d' R c y z)
include hk h

theorem update_agree {s : Statement} (hs : S s) (argument : Argument) :
    Agree d d' R c (update s argument) (update s argument) y z := by
  refine (flushCacheFor_agree h s).bind ?_
  intro _ y₁ z₁ h₁
  exact onWorker_agree h₁ (Worker.update_agree hk h₁.workers hs argument)

theorem queryBound_agree (s : Statement) (bounds : RowBounds) (key : CacheKey)
    (bound : BoundStatement) :
    Agree d d' R c (queryBound s bounds key bound) (queryBound s bounds key bound) y z := by
  have hworker {y : Executor σ × World σ} {z : Executor τ × World τ} (h : InStep d d' R c y z) :
      Agree d d' R c (onWorker (Worker.queryBound s bounds key bound))
        (onWorker (Worker.queryBound s bounds key bound)) y z :=
    onWorker_agree h (Worker.queryBound_agree hk h.workers s bounds key bound)
  refine Twin.bind_get ?_
  -- The overlays are the same, so both look into the cache or neither does.
  rw [h.overlays]
  cases (if y.1.overlays.isSome = true then s.cache else none) with
  | none => exact hworker h
  | some r =>
    refine (flushCacheFor_agree h s).bind ?_
    intro _ y₁ z₁ h₁
    split
    · refine (Lockstep.ofExcept _ h₁).bind ?_
      intro _ y₂ z₂ h₂
      refine (lookup_agree h₂ r key).bind ?_
      intro found y₃ z₃ h₃
      cases found with
      | some hit => exact .pure hit h₃
      | none =>
        refine (hworker h₃).bind ?_
        intro rows y₄ z₄ h₄
        exact (changeOverlays_agree h₄ _).bind fun _ _ _ h₅ => .pure rows h₅
    · exact hworker h₁

theorem query_agree (s : Statement) (argument : Argument) (bounds : RowBounds) :
    Agree d d' R c (query s argument bounds) (query s argument bounds) y z := by
  refine (Lockstep.ofExcept _ h).bind ?_
  intro bound y₁ z₁ h₁
  refine (onWorker_agree h₁ (Worker.key_agree h₁.workers s bounds bound)).bind ?_
  intro key y₂ z₂ h₂
  exact queryBound_agree hk h₂ s bounds key bound

theorem handOut_agree (s : Statement) (argument : Argument) (bounds : RowBounds)
    (enough : Nat → Row → Bool) :
    Agree d d' R c (handOut s argument bounds enough) (handOut s argument bounds enough) y z := by
  refine (flushCacheFor_agree h s).bind ?_
  intro _ y₁ z₁ h₁
  exact onWorker_agree h₁ (Worker.handOut_agree hk h₁.workers s argument bounds enough)

theorem flush_agree : Agree d d' R c flush flush y z :=
  onWorker_agree h (Worker.flush_agree hk h.workers)

theorem commit_agree (required : Bool) :
    Agree d d' R c (commit required) (commit required) y z := by
  refine (onWorker_agree h (Worker.commit_agree hk h.workers required)).bind ?_
  intro _ y₁ z₁ h₁
  exact publish_agree h₁

theorem rollback_agree (required : Bool) :
    Agree d d' R c (rollback required) (rollback required) y z := by
  refine (onWorker_agree h (Worker.rollback_agree hk h.workers required)).attempt.bind ?_
  intro outcome y₁ z₁ h₁
  cases required with
  | false => exact .ofExcept outcome h₁
  | true => exact (retract_agree h₁).bind fun _ _ _ h₂ => .ofExcept outcome h₂

theorem close_agree (force : Bool) : Agree d d' R c (close force) (close force) y z := by
  have hworker {y : Executor σ × World σ} {z : Executor τ × World τ} (h : InStep d d' R c y z) :
      Agree d d' R c (onWorker (Worker.close force)) (onWorker (Worker.close force)) y z :=
    onWorker_agree h (Worker.close_agree hk h.workers force)
  cases force with
  | true => exact (retract_agree h).bind fun _ _ _ h₁ => hworker h₁
  | false => exact (publish_agree h).bind fun _ _ _ h₁ => hworker h₁

end

end Executor

-- ---------------------------------------------------------------------------
-- Sessions
-- ---------------------------------------------------------------------------

namespace Session

structure InStep (d : Driver σ) (d' : Driver τ)
    (R : Strategy × Channel σ → Strategy × Channel τ → Prop) (c : Configuration)
    (y : Session σ × World σ) (z : Session τ × World τ) : Prop where
  executors : Executor.InStep d d' R c (unit y) (unit z)
  isDirty : z.1.isDirty = y.1.isDirty

abbrev Agree (d : Driver σ) (d' : Driver τ)
    (R : Strategy × Channel σ → Strategy × Channel τ → Prop) (c : Configuration)
    (a : SessionCall σ α) (b : SessionCall τ α) (y : Session σ × World σ)
    (z : Session τ × World τ) : Prop :=
  Lockstep (InStep d d' R c) a b y z

variable {y : Session σ × World σ} {z : Session τ × World τ}

theorem InStep.configurations (h : InStep d d' R c y z) :
    y.1.configuration = c ∧ z.1.configuration = c :=
  h.executors.workers.configurations

theorem InStep.isClosed (h : InStep d d' R c y z) : z.1.isClosed = y.1.isClosed :=
  h.executors.workers.isClosed

theorem onExecutor_agree {a : Execute σ α} {b : Execute τ α} (h : InStep d d' R c y z)
    (ha : Executor.Agree d d' R c a b (unit y) (unit z)) :
    Agree d d' R c (onExecutor a) (onExecutor b) y z :=
  Lockstep.within ha fun _ _ he => ⟨he, h.isDirty⟩

theorem setDirty_agree (h : InStep d d' R c y z) (isDirty : Bool) :
    Agree d d' R c (setDirty isDirty) (setDirty isDirty) y z :=
  .modify ⟨h.executors, rfl⟩

theorem bind_statement_agree {id : String} {f : Statement → SessionCall σ α}
    {g : Statement → SessionCall τ α} (h : InStep d d' R c y z)
    (hf : ∀ s, c.statement id = .ok s → Agree d d' R c (f s) (g s) y z) :
    Agree d d' R c (statement id >>= f) (statement id >>= g) y z := by
  refine Twin.bind_get (f := fun y => Action.ofExcept (y.1.configuration.statement id) >>= f)
    (g := fun z => Action.ofExcept (z.1.configuration.statement id) >>= g) ?_
  rw [h.configurations.1, h.configurations.2]
  exact Twin.bind_ofExcept hf fun _ _ => h

theorem bind_isRequired_agree {force : Bool} {f : Bool → SessionCall σ α}
    {g : Bool → SessionCall τ α} (h : InStep d d' R c y z)
    (hf : ∀ required, Agree d d' R c (f required) (g required) y z) :
    Agree d d' R c (isRequired force >>= f) (isRequired force >>= g) y z := by
  refine Twin.bind_get (f := fun y => f (force || y.1.isDirty))
    (g := fun z => g (force || z.1.isDirty)) ?_
  rw [h.isDirty]
  exact hf _

theorem opened_inStep {type type' : ExecutorType} {w : World σ} {w' : World τ}
    (timeout : Option Timeout) (hc : w'.caches = w.caches)
    (hr : R (.ofType type, w.toChannel) (.ofType type', w'.toChannel)) :
    InStep d d' R c (opened d c timeout type w) (opened d' c timeout type' w') := by
  refine ⟨⟨?_, ?_, hc⟩, rfl⟩
  · change Worker.InStep d d' R c ((Executor.start c _ type).worker, w.toChannel)
      ((Executor.start c _ type').worker, w'.toChannel)
    rw [Executor.start_worker, Executor.start_worker]
    exact ⟨⟨rfl, rfl⟩, ⟨⟨rfl, rfl⟩, rfl, rfl⟩, rfl, hr⟩
  · exact (Executor.start_overlays ..).trans (Executor.start_overlays ..).symm

section
variable (hk : Strategy.InStep d d' S R) (h : InStep d d' R c y z)
include hk h

theorem selectList_agree (id : String) (argument : Argument) (bounds : RowBounds) :
    Agree d d' R c (selectList id argument bounds) (selectList id argument bounds) y z :=
  bind_statement_agree h fun s _ =>
    onExecutor_agree h (Executor.query_agree hk h.executors s argument bounds)

theorem selectOne_agree (id : String) (argument : Argument) :
    Agree d d' R c (selectOne id argument) (selectOne id argument) y z := by
  refine (selectList_agree hk h id argument .unbounded).bind ?_
  intro rows y₁ z₁ h₁
  split
  · exact .pure none h₁
  · exact .pure _ h₁
  · exact .throw _ h₁

theorem update_agree (hS : ∀ id s, c.statement id = .ok s → S s) (id : String)
    (argument : Argument) :
    Agree d d' R c (Session.update id argument) (Session.update id argument) y z := by
  refine bind_statement_agree h fun s hs => (setDirty_agree h true).bind ?_
  intro _ y₁ z₁ h₁
  exact onExecutor_agree h₁ (Executor.update_agree hk h₁.executors (hS id s hs) argument)

theorem close_agree : Agree d d' R c Session.close Session.close y z := by
  refine bind_isRequired_agree h fun required => ?_
  refine (onExecutor_agree h (Executor.close_agree hk h.executors required)).bind ?_
  intro _ y₁ z₁ h₁
  exact setDirty_agree h₁ false

end

end Session

namespace Call

open Session

theorem perform_agree {y : Session σ × World σ} {z : Session τ × World τ}
    (hk : Strategy.InStep d d' S R) (hS : ∀ id s, c.statement id = .ok s → S s) (call : Call)
    (h : Session.InStep d d' R c y z) :
    Session.Agree d d' R c call.perform call.perform y z := by
  cases call with
  | selectList id argument bounds => exact (selectList_agree hk h id argument bounds).returning _
  | selectOne id argument => exact (selectOne_agree hk h id argument).returning _
  | handOut id argument bounds enough =>
    refine Lockstep.returning ?_ Reply.handed
    refine bind_statement_agree h fun s _ => onExecutor_agree h ?_
    exact Executor.handOut_agree hk h.executors s argument bounds enough
  | update id argument => exact (update_agree hk h hS id argument).returning _
  | flush => exact (onExecutor_agree h (Executor.flush_agree hk h.executors)).returning _
  | commit force =>
    refine Lockstep.returning ?_ fun _ => Reply.done
    refine bind_isRequired_agree h fun required => ?_
    refine (onExecutor_agree h (Executor.commit_agree hk h.executors required)).bind ?_
    intro _ y₁ z₁ h₁
    exact setDirty_agree h₁ false
  | rollback force =>
    refine Lockstep.returning ?_ fun _ => Reply.done
    refine bind_isRequired_agree h fun required => ?_
    refine (onExecutor_agree h (Executor.rollback_agree hk h.executors required)).bind ?_
    intro _ y₁ z₁ h₁
    exact setDirty_agree h₁ false
  | clearCache =>
    exact (onExecutor_agree h (Executor.clearLocalCache_agree h.executors)).returning _
  | close => exact (close_agree hk h).returning _
  | drop =>
    refine Lockstep.returning ?_ fun _ => Reply.done
    refine Twin.bind_get ?_
    rw [h.isClosed]
    cases y.1.isClosed with
    | true => exact Lockstep.pure _ h
    | false => exact close_agree hk h

end Call

end MappedSql
