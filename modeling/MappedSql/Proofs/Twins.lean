import MappedSql.Proofs.WorkersOnDesks

/-!
# Twin sessions

Two sessions with the same configuration, the same caches and the same memory, on drivers that
show the same database: one may execute an update at once and the other may let it wait. A call
of both ends alike, and leaves them twins again. It fails for one of them alone only where a key
generator has failed.
-/

namespace MappedSql

-- ---------------------------------------------------------------------------
-- Rules for pairs of actions
-- ---------------------------------------------------------------------------

section
variable {σ τ σ' τ' α β γ ζ : Type} {a : Action σ α} {b : Action τ β} {s : σ} {t : τ}
  {P Q : α → β → σ → τ → Prop} {E F : Error → σ → τ → Prop} {L : σ → Prop} {M : τ → Prop}

/-- What holds after two actions: `Q` when both succeed, `E` when both fail with one error. Where
they end differently, the one that fails was lost: `L` holds of the first or `M` of the second. -/
def Twin (a : Action σ α) (b : Action τ β) (s : σ) (t : τ) (Q : α → β → σ → τ → Prop)
    (E : Error → σ → τ → Prop) (L : σ → Prop) (M : τ → Prop) : Prop :=
  match a.outcome s, b.outcome t with
  | (.ok value, s'), (.ok value', t') => Q value value' s' t'
  | (.error e, s'), (.error e', t') => (e = e' ∧ E e s' t') ∨ L s' ∨ M t'
  | (.error _, s'), (.ok _, _) => L s'
  | (.ok _, _), (.error _, t') => M t'

namespace Twin

theorem mono (h : Twin a b s t P E L M) (hQ : ∀ value value' s' t', P value value' s' t' →
    Q value value' s' t') (hF : ∀ e s' t', E e s' t' → F e s' t') : Twin a b s t Q F L M := by
  unfold Twin at h ⊢
  generalize a.outcome s = x, b.outcome t = y at h ⊢
  obtain ⟨_ | _, s'⟩ := x <;> obtain ⟨_ | _, t'⟩ := y
  · exact h.imp_left fun ⟨he, h⟩ => ⟨he, hF _ _ _ h⟩
  · exact h
  · exact h
  · exact hQ _ _ _ _ h

theorem bind {f : α → Action σ γ} {g : β → Action τ ζ} {Q : γ → ζ → σ → τ → Prop}
    (h : Twin a b s t P E L M)
    (hf : ∀ value value' s' t', P value value' s' t' →
      Twin (f value) (g value') s' t' Q E L M) :
    Twin (a >>= f) (b >>= g) s t Q E L M := by
  unfold Twin at h
  rw [Twin, Action.outcome_bind, Action.outcome_bind]
  generalize a.outcome s = x, b.outcome t = y at h ⊢
  obtain ⟨_ | value, s'⟩ := x <;> obtain ⟨_ | value', t'⟩ := y
  · exact h
  · dsimp only at h ⊢
    rcases (g value').outcome t' with ⟨_ | _, _⟩
    exacts [.inr (.inl h), h]
  · dsimp only at h ⊢
    rcases (f value).outcome s' with ⟨_ | _, _⟩
    exacts [.inr (.inr h), h]
  · exact hf value value' s' t' h

theorem pure {value : α} {value' : β} (h : Q value value' s t) :
    Twin (Pure.pure value : Action σ α) (Pure.pure value' : Action τ β) s t Q E L M := h

theorem throw {e : Error} (h : E e s t) :
    Twin (throw e : Action σ α) (throw e : Action τ β) s t Q E L M := .inl ⟨rfl, h⟩

theorem bind_get {f : σ → Action σ γ} {g : τ → Action τ ζ} {Q : γ → ζ → σ → τ → Prop}
    (h : Twin (f s) (g t) s t Q E L M) : Twin (get >>= f) (get >>= g) s t Q E L M := by
  rw [Twin, Action.outcome_bind, Action.outcome_bind]
  exact h

theorem modify {f : σ → σ} {g : τ → τ} {Q : Unit → Unit → σ → τ → Prop} (h : Q () () (f s) (g t)) :
    Twin (modify f : Action σ Unit) (modify g : Action τ Unit) s t Q E L M := h

theorem modifyGet {f : σ → α × σ} {g : τ → β × τ} (h : Q (f s).1 (g t).1 (f s).2 (g t).2) :
    Twin (modifyGet f : Action σ α) (modifyGet g : Action τ β) s t Q E L M := h

theorem bind_ofExcept {ι : Type} {r : Except Error ι} {f : ι → Action σ γ} {g : ι → Action τ ζ}
    {Q : γ → ζ → σ → τ → Prop} (hQ : ∀ value, r = .ok value → Twin (f value) (g value) s t Q E L M)
    (hE : ∀ e, r = .error e → E e s t) :
    Twin (Action.ofExcept r >>= f) (Action.ofExcept r >>= g) s t Q E L M := by
  rw [Twin, Action.outcome_bind, Action.outcome_bind, Action.outcome_ofExcept,
    Action.outcome_ofExcept]
  cases r with
  | ok value => exact hQ value rfl
  | error e => exact .inl ⟨rfl, hE e rfl⟩

theorem within {get : σ' → σ} {set : σ → σ' → σ'} {get' : τ' → τ} {set' : τ → τ' → τ'} {s : σ'}
    {t : τ'} {Q : α → β → σ' → τ' → Prop} {E : Error → σ' → τ' → Prop} {L : σ' → Prop}
    {M : τ' → Prop}
    (h : Twin a b (get s) (get' t) (fun value value' s' t' => Q value value' (set s' s) (set' t' t))
      (fun e s' t' => E e (set s' s) (set' t' t)) (fun s' => L (set s' s))
      fun t' => M (set' t' t)) :
    Twin (a.within get set) (b.within get' set') s t Q E L M := by
  unfold Twin at h
  rw [Twin, Action.outcome_within, Action.outcome_within]
  generalize a.outcome (get s) = x, b.outcome (get' t) = y at h ⊢
  obtain ⟨_ | _, s'⟩ := x <;> obtain ⟨_ | _, t'⟩ := y <;> exact h

/-- Two actions whose ends are determined by one outcome, unless they are lost. -/
theorem of_determined {ι : Type} {r : Except Error ι} {P : ι → α → σ → Prop}
    {P' : ι → β → τ → Prop} {X : Error → σ → Prop} {X' : Error → τ → Prop}
    (ha : Triple a s (fun value s' => ∃ i, r = .ok i ∧ P i value s')
      (fun e s' => r = .error e ∧ X e s' ∨ L s'))
    (hb : Triple b t (fun value t' => ∃ i, r = .ok i ∧ P' i value t')
      (fun e t' => r = .error e ∧ X' e t' ∨ M t')) :
    Twin a b s t (fun value value' s' t' => ∃ i, r = .ok i ∧ P i value s' ∧ P' i value' t')
      (fun e s' t' => r = .error e ∧ X e s' ∧ X' e t') L M := by
  unfold Triple at ha hb
  unfold Twin
  generalize a.outcome s = x, b.outcome t = y at ha hb ⊢
  obtain ⟨e | _, s'⟩ := x <;> obtain ⟨e' | _, t'⟩ := y <;> dsimp only at ha hb ⊢
  · rcases ha with ⟨he, hx⟩ | hl
    · rcases hb with ⟨he', hx'⟩ | hm
      · cases he.symm.trans he'
        exact .inl ⟨rfl, he, hx, hx'⟩
      · exact .inr (.inr hm)
    · exact .inr (.inl hl)
  · obtain ⟨i, hi, -⟩ := hb
    exact ha.resolve_left fun ⟨he, _⟩ => by cases he.symm.trans hi
  · obtain ⟨i, hi, -⟩ := ha
    exact hb.resolve_left fun ⟨he, _⟩ => by cases he.symm.trans hi
  · obtain ⟨i, hi, hp⟩ := ha
    obtain ⟨i', hi', hp'⟩ := hb
    cases hi.symm.trans hi'
    exact ⟨i, hi, hp, hp'⟩

theorem of_total {P : α → σ → Prop} {P' : β → τ → Prop} (ha : Triple a s P fun _ => L)
    (hb : Triple b t P' fun _ => M) :
    Twin a b s t (fun value value' s' t' => P value s' ∧ P' value' t') E L M := by
  unfold Triple at ha hb
  unfold Twin
  generalize a.outcome s = x, b.outcome t = y at ha hb ⊢
  obtain ⟨_ | _, s'⟩ := x <;> obtain ⟨_ | _, t'⟩ := y
  exacts [.inr (.inl ha), ha, hb, ⟨ha, hb⟩]

end Twin

variable {δ : Type} {T : δ → σ → τ → Prop}

def TwinOn (T : δ → σ → τ → Prop) (L : σ → Prop) (M : τ → Prop) (a : Action σ α) (b : Action τ β)
    (s : σ) (t : τ) (R : α → β → δ → Prop) (F : Error → δ → Prop) : Prop :=
  Twin a b s t (fun value value' s' t' => ∃ x, R value value' x ∧ T x s' t')
    (fun e s' t' => ∃ x, F e x ∧ T x s' t') L M

theorem TwinOn.mono {R R' : α → β → δ → Prop} {F F' : Error → δ → Prop}
    (h : TwinOn T L M a b s t R F) (hR : ∀ value value' x, R value value' x → R' value value' x)
    (hF : ∀ e x, F e x → F' e x) : TwinOn T L M a b s t R' F' :=
  Twin.mono h (fun _ _ _ _ ⟨x, hr, ht⟩ => ⟨x, hR _ _ x hr, ht⟩)
    fun _ _ _ ⟨x, hf, ht⟩ => ⟨x, hF _ x hf, ht⟩

theorem TwinOn.bind {f : α → Action σ γ} {g : β → Action τ ζ} {R : α → β → δ → Prop}
    {R' : γ → ζ → δ → Prop} {F : Error → δ → Prop} (h : TwinOn T L M a b s t R F)
    (hf : ∀ value value' x s' t', R value value' x → T x s' t' →
      TwinOn T L M (f value) (g value') s' t' R' F) :
    TwinOn T L M (a >>= f) (b >>= g) s t R' F :=
  Twin.bind h fun value value' s' t' ⟨x, hr, ht⟩ => hf value value' x s' t' hr ht

theorem TwinOn.returning {f : α → γ} {g : β → ζ} {R : α → β → δ → Prop} {R' : γ → ζ → δ → Prop}
    {F : Error → δ → Prop} (h : TwinOn T L M a b s t R F)
    (hr : ∀ value value' x, R value value' x → R' (f value) (g value') x) :
    TwinOn T L M (return f (← a)) (return g (← b)) s t R' F :=
  h.bind fun value value' x _ _ hx ht => Twin.pure ⟨x, hr value value' x hx, ht⟩

theorem TwinOn.pure {value : α} {value' : β} {R : α → β → δ → Prop} {F : Error → δ → Prop} {x : δ}
    (hr : R value value' x) (ht : T x s t) :
    TwinOn T L M (Pure.pure value) (Pure.pure value') s t R F :=
  Twin.pure ⟨x, hr, ht⟩

end

-- ---------------------------------------------------------------------------
-- Executors
-- ---------------------------------------------------------------------------

structure Station (δ σ : Type) where
  driver : Driver σ
  Rep : Desk δ → σ → Prop
  type : ExecutorType

section
variable {σ τ δ α β : Type} {p : Station δ σ} {q : Station δ τ} {m : Engine δ}
  {G : String → KeyGenerator → Prop} {c : Configuration} {x : δ}

def Station.Serves (p : Station δ σ) (m : Engine δ) : Prop :=
  p.driver.Serves m p.Rep p.type

/-- What queries may make of a database. -/
def Engine.Reads (m : Engine δ) (x y : δ) : Prop :=
  y = x ∨ ∃ sql values, y = m.asked x sql values

namespace Executor

variable {y : Executor σ × World σ} {z : Executor τ × World τ} {s : Statement}

/-- Executors that differ only in how they reach their databases, which are the same. -/
structure Twins (p : Station δ σ) (q : Station δ τ) (m : Engine δ)
    (G : String → KeyGenerator → Prop) (c : Configuration) (x : δ) (y : Executor σ × World σ)
    (z : Executor τ × World τ) : Prop where
  works : ∃ l, Worker.Works p.driver m p.Rep G p.type c x l (work y) ∧
    Worker.Works q.driver m q.Rep G q.type c x l (work z)
  overlays : z.1.overlays = y.1.overlays
  caches : z.2.caches = y.2.caches

abbrev TwinCalls (p : Station δ σ) (q : Station δ τ) (m : Engine δ)
    (G : String → KeyGenerator → Prop) (c : Configuration) (a : Execute σ α) (b : Execute τ β)
    (y : Executor σ × World σ) (z : Executor τ × World τ) (R : α → β → δ → Prop)
    (F : Error → δ → Prop) : Prop :=
  TwinOn (Twins p q m G c) (fun y => Channel.Lost G y.2.toChannel)
    (fun z => Channel.Lost G z.2.toChannel) a b y z R F

variable (hp : p.Serves m) (hq : q.Serves m) (hm : m.Folds) (h : Twins p q m G c x y z)

include h

theorem onWorker_twins {a : Work σ α} {b : Work τ β} {R : α → β → δ → Prop} {F : Error → δ → Prop}
    (ha : ∀ l, Worker.Works p.driver m p.Rep G p.type c x l (work y) →
      Worker.Works q.driver m q.Rep G q.type c x l (work z) →
      Twin a b (work y) (work z)
        (fun value value' w v => ∃ x' l', R value value' x' ∧
          Worker.Works p.driver m p.Rep G p.type c x' l' w ∧
          Worker.Works q.driver m q.Rep G q.type c x' l' v)
        (fun e w v => ∃ x' l', F e x' ∧ Worker.Works p.driver m p.Rep G p.type c x' l' w ∧
          Worker.Works q.driver m q.Rep G q.type c x' l' v)
        (fun w => Channel.Lost G w.2) fun v => Channel.Lost G v.2) :
    TwinCalls p q m G c (onWorker a) (onWorker b) y z R F := by
  obtain ⟨l, hy, hz⟩ := h.works
  refine Twin.within ((ha l hy hz).mono ?_ ?_)
  · rintro value value' w v ⟨x', l', hr, hw, hv⟩
    exact ⟨x', hr, ⟨l', hw, hv⟩, h.overlays, h.caches⟩
  · rintro e w v ⟨x', l', hf, hw, hv⟩
    exact ⟨x', hf, ⟨l', hw, hv⟩, h.overlays, h.caches⟩

theorem changeOverlays_twins (f : Overlays CacheKey ResultSet → Overlays CacheKey ResultSet)
    {F : Error → δ → Prop} :
    TwinCalls p q m G c (changeOverlays f) (changeOverlays f) y z (fun _ _ x' => x' = x) F :=
  Twin.modify ⟨x, rfl, h.works, congrArg (Option.map f) h.overlays, h.caches⟩

theorem flushCacheFor_twins (s : Statement) {F : Error → δ → Prop} :
    TwinCalls p q m G c (flushCacheFor s) (flushCacheFor s) y z (fun _ _ x' => x' = x) F := by
  unfold flushCacheFor
  cases s.cache with
  | none => exact .pure rfl h
  | some r =>
    cases s.flushesCache with
    | false => exact .pure rfl h
    | true => exact changeOverlays_twins h _

theorem lookup_twins (r : CacheRef) (key : CacheKey) {F : Error → δ → Prop} :
    TwinCalls p q m G c (lookup r key) (lookup r key) y z
      (fun found found' x' => found' = found ∧ x' = x) F := by
  obtain ⟨⟨worker, overlays⟩, channel, caches⟩ := y
  obtain ⟨⟨worker', overlays'⟩, channel', caches'⟩ := z
  obtain ⟨hw, rfl, rfl⟩ := h
  cases overlays' with
  | none => exact Twin.modifyGet ⟨x, ⟨rfl, rfl⟩, hw, rfl, rfl⟩
  | some os => exact Twin.modifyGet ⟨x, ⟨rfl, rfl⟩, hw, rfl, rfl⟩

theorem publish_twins {F : Error → δ → Prop} :
    TwinCalls p q m G c publish publish y z (fun _ _ x' => x' = x) F := by
  obtain ⟨⟨worker, overlays⟩, channel, caches⟩ := y
  obtain ⟨⟨worker', overlays'⟩, channel', caches'⟩ := z
  obtain ⟨hw, rfl, rfl⟩ := h
  cases overlays' with
  | none => exact Twin.modify ⟨x, rfl, hw, rfl, rfl⟩
  | some os => exact Twin.modify ⟨x, rfl, hw, rfl, rfl⟩

include hp hq

theorem update_twins {s : Statement} (hs : s.Generates G) (argument : Argument) :
    TwinCalls p q m G c (update s argument) (update s argument) y z
      (fun _ _ x' => ∃ i, Item.ofUpdate c.handlers s argument = .ok i ∧
        x' = m.update x i.sql i.values) (fun _ x' => x' = x) := by
  refine (flushCacheFor_twins h s).bind ?_
  rintro _ _ _ y₁ z₁ rfl h₁
  refine onWorker_twins h₁ fun l hy hz => ?_
  refine (Twin.of_determined (Worker.update_works hp hs hy) (Worker.update_works hq hs hz)).mono
    ?_ ?_
  · rintro _ _ w v ⟨i, hi, hw, hv⟩
    exact ⟨_, [], ⟨i, hi, rfl⟩, hw, hv⟩
  · rintro e w v ⟨-, hw, hv⟩
    exact ⟨_, [], rfl, hw, hv⟩

include hm

theorem workerQuery_twins (s : Statement) (bounds : RowBounds) (key : CacheKey)
    (bound : BoundStatement) :
    TwinCalls p q m G c (onWorker (Worker.queryBound s bounds key bound))
      (onWorker (Worker.queryBound s bounds key bound)) y z
      (fun rows rows' x' => rows' = rows ∧ m.Reads x x') (fun _ x' => x' = x) := by
  refine onWorker_twins h fun l hy hz => ?_
  cases hf : Keyed.get? (Worker.left s l) key with
  | some hit =>
    refine (Twin.of_total (Worker.queryBound_found hy hf) (Worker.queryBound_found hz hf)).mono
      ?_ fun _ _ _ => id
    rintro _ _ w v ⟨⟨rfl, hw, -⟩, rfl, hv, -⟩
    exact ⟨x, _, ⟨rfl, .inl rfl⟩, hw, hv⟩
  | none =>
    refine (Twin.of_determined (Worker.queryBound_fetched hm hp hy hf)
      (Worker.queryBound_fetched hm hq hz hf)).mono ?_ ?_
    · rintro _ _ w v ⟨values, -, ⟨rfl, hw, -⟩, rfl, hv, -⟩
      exact ⟨_, _, ⟨rfl, .inr ⟨_, _, rfl⟩⟩, hw, hv⟩
    · rintro e w v ⟨-, ⟨hw, -⟩, hv, -⟩
      exact ⟨x, _, rfl, hw, hv⟩

theorem queryBound_twins (s : Statement) (bounds : RowBounds) (key : CacheKey)
    (bound : BoundStatement) :
    TwinCalls p q m G c (queryBound s bounds key bound) (queryBound s bounds key bound) y z
      (fun rows rows' x' => rows' = rows ∧ m.Reads x x') (fun _ x' => x' = x) := by
  have hworker {y : Executor σ × World σ} {z : Executor τ × World τ}
      (h : Twins p q m G c x y z) := workerQuery_twins hp hq hm h s bounds key bound
  refine Twin.bind_get ?_
  -- Twins have the same overlays, so both look into the cache or neither does.
  rw [h.overlays]
  cases (if y.1.overlays.isSome = true then s.cache else none) with
  | none => exact hworker h
  | some r =>
    refine (flushCacheFor_twins h s).bind ?_
    rintro _ _ _ y₁ z₁ rfl h₁
    split
    · refine Twin.bind_ofExcept (fun _ _ => ?_) fun _ _ => ⟨_, rfl, h₁⟩
      refine (lookup_twins h₁ r key).bind ?_
      rintro _ found _ y₂ z₂ ⟨rfl, rfl⟩ h₂
      cases found with
      | some hit => exact .pure ⟨rfl, .inl rfl⟩ h₂
      | none =>
        refine (hworker h₂).bind ?_
        rintro _ rows x' y₃ z₃ ⟨rfl, hx⟩ h₃
        refine (changeOverlays_twins h₃ (·.put r key rows)).bind ?_
        rintro _ _ _ y₄ z₄ rfl h₄
        exact .pure ⟨rfl, hx⟩ h₄
    · exact hworker h₁

theorem query_twins (s : Statement) (argument : Argument) (bounds : RowBounds) :
    TwinCalls p q m G c (query s argument bounds) (query s argument bounds) y z
      (fun rows rows' x' => rows' = rows ∧ m.Reads x x') (fun _ x' => x' = x) := by
  refine Twin.bind_ofExcept (fun bound _ => ?_) fun _ _ => ⟨x, rfl, h⟩
  have hkey : TwinCalls p q m G c (Executor.key s bounds bound) (Executor.key s bounds bound) y z
      (fun key key' x' => key' = key ∧ x' = x) (fun _ x' => x' = x) := by
    refine onWorker_twins h fun l hy hz => ?_
    have hsame {ρ : Type} {r : Station δ ρ} {w : Worker ρ × Channel ρ}
        (hw : Worker.Works r.driver m r.Rep G r.type c x l w) :
        Triple (Worker.key s bounds bound) w
          (fun key w' => ∃ k, Worker.cacheKey c s bounds bound = .ok k ∧ key = k ∧ w' = w)
          (fun e w' => Worker.cacheKey c s bounds bound = .error e ∧ w' = w ∨
            Channel.Lost G w'.2) := by
      refine hw.bind_ensureOpen (Worker.bind_current ?_)
      rw [hw.configuration]
      exact .ofExcept (fun k hk => ⟨k, hk, rfl, rfl⟩) fun e he => .inl ⟨he, rfl⟩
    refine (Twin.of_determined (hsame hy) (hsame hz)).mono ?_ ?_
    · rintro _ _ _ _ ⟨k, -, ⟨rfl, rfl⟩, rfl, rfl⟩
      exact ⟨x, l, ⟨rfl, rfl⟩, hy, hz⟩
    · rintro _ _ _ ⟨-, rfl, rfl⟩
      exact ⟨x, l, rfl, hy, hz⟩
  refine hkey.bind ?_
  rintro _ key _ y₁ z₁ ⟨rfl, rfl⟩ h₁
  exact queryBound_twins hp hq hm h₁ s bounds key bound

theorem handOut_twins (s : Statement) (argument : Argument) (bounds : RowBounds)
    (enough : Nat → Row → Bool) :
    TwinCalls p q m G c (handOut s argument bounds enough) (handOut s argument bounds enough) y z
      (fun handed handed' x' => handed' = handed ∧ m.Reads x x') (fun _ x' => x' = x) := by
  refine (flushCacheFor_twins h s).bind ?_
  rintro _ _ _ y₁ z₁ rfl h₁
  refine onWorker_twins h₁ fun l hy hz => ?_
  refine (Twin.of_determined (Worker.handOut_works hm hp hy) (Worker.handOut_works hm hq hz)).mono
    ?_ ?_
  · rintro _ _ w v ⟨i, -, ⟨rfl, hw, -⟩, rfl, hv, -⟩
    exact ⟨_, _, ⟨rfl, .inr ⟨_, _, rfl⟩⟩, hw, hv⟩
  · rintro e w v ⟨-, ⟨hw, -⟩, hv, -⟩
    exact ⟨_, _, rfl, hw, hv⟩

theorem flush_twins {F : Error → δ → Prop} :
    TwinCalls p q m G c flush flush y z (fun _ _ x' => x' = x) F := by
  refine onWorker_twins h fun l hy hz => ?_
  refine (Twin.of_total (Worker.flush_works hm hp hy) (Worker.flush_works hm hq hz)).mono
    ?_ fun _ _ _ => id
  rintro _ _ w v ⟨⟨hw, -⟩, hv, -⟩
  exact ⟨x, l, rfl, hw, hv⟩

theorem commit_twins (required : Bool) {F : Error → δ → Prop} :
    TwinCalls p q m G c (commit required) (commit required) y z
      (fun _ _ x' => x' = if required then m.commit x else x) F := by
  have hcommit : TwinCalls p q m G c (onWorker (Worker.commit required))
      (onWorker (Worker.commit required)) y z
      (fun _ _ x' => x' = if required then m.commit x else x) F := by
    refine onWorker_twins h fun l hy hz => ?_
    refine (Twin.of_total (Worker.commit_works hm hp required hy)
      (Worker.commit_works hm hq required hz)).mono ?_ fun _ _ _ => id
    rintro _ _ w v ⟨⟨hw, -⟩, hv, -⟩
    exact ⟨_, [], rfl, hw, hv⟩
  refine hcommit.bind ?_
  rintro _ _ _ y₁ z₁ rfl h₁
  exact publish_twins h₁

omit hp hq hm in
theorem clearLocalCache_twins {F : Error → δ → Prop} :
    TwinCalls p q m G c clearLocalCache clearLocalCache y z (fun _ _ x' => x' = x) F := by
  refine onWorker_twins h fun l hy hz => ?_
  refine (Twin.of_total (Worker.clearLocalCache_works hy) (Worker.clearLocalCache_works hz)).mono
    ?_ fun _ _ _ => id
  rintro _ _ w v ⟨⟨hw, -⟩, hv, -⟩
  exact ⟨x, [], rfl, hw, hv⟩

end Executor

-- ---------------------------------------------------------------------------
-- Sessions
-- ---------------------------------------------------------------------------

def Configuration.item (c : Configuration) (id : String) (argument : Argument) :
    Except Error Item := do
  Item.ofUpdate c.handlers (← c.statement id) argument

namespace Session

variable {y : Session σ × World σ} {z : Session τ × World τ}

structure Twins (p : Station δ σ) (q : Station δ τ) (m : Engine δ)
    (G : String → KeyGenerator → Prop) (c : Configuration) (x : δ) (y : Session σ × World σ)
    (z : Session τ × World τ) : Prop where
  executors : Executor.Twins p q m G c x (unit y) (unit z)
  isDirty : z.1.isDirty = y.1.isDirty

abbrev TwinCalls (p : Station δ σ) (q : Station δ τ) (m : Engine δ)
    (G : String → KeyGenerator → Prop) (c : Configuration) (a : SessionCall σ α)
    (b : SessionCall τ β) (y : Session σ × World σ) (z : Session τ × World τ)
    (R : α → β → δ → Prop) (F : Error → δ → Prop) : Prop :=
  TwinOn (Twins p q m G c) (fun y => Channel.Lost G y.2.toChannel)
    (fun z => Channel.Lost G z.2.toChannel) a b y z R F

theorem Twins.configuration (h : Twins p q m G c x y z) :
    y.1.configuration = c ∧ z.1.configuration = c := by
  obtain ⟨l, hy, hz⟩ := h.executors.works
  exact ⟨hy.configuration, hz.configuration⟩

theorem onExecutor_twins {a : Execute σ α} {b : Execute τ β} {R : α → β → δ → Prop}
    {F : Error → δ → Prop} (h : Twins p q m G c x y z)
    (ha : Executor.TwinCalls p q m G c a b (unit y) (unit z) R F) :
    TwinCalls p q m G c (onExecutor a) (onExecutor b) y z R F := by
  refine Twin.within (Twin.mono ha ?_ ?_)
  · rintro value value' y' z' ⟨x', hr, ht⟩
    exact ⟨x', hr, ht, h.isDirty⟩
  · rintro e y' z' ⟨x', hf, ht⟩
    exact ⟨x', hf, ht, h.isDirty⟩

theorem bind_statement_twins {id : String} {f : Statement → SessionCall σ α}
    {g : Statement → SessionCall τ β} {R : α → β → δ → Prop} {F : Error → δ → Prop}
    (h : Twins p q m G c x y z)
    (hf : ∀ s, c.statement id = .ok s → TwinCalls p q m G c (f s) (g s) y z R F)
    (hF : ∀ e, F e x) :
    TwinCalls p q m G c (statement id >>= f) (statement id >>= g) y z R F := by
  refine Twin.bind_get (f := fun y => Action.ofExcept (y.1.configuration.statement id) >>= f)
    (g := fun z => Action.ofExcept (z.1.configuration.statement id) >>= g) ?_
  rw [h.configuration.1, h.configuration.2]
  exact Twin.bind_ofExcept hf fun e _ => ⟨x, hF e, h⟩

theorem bind_isRequired_twins {force : Bool} {f : Bool → SessionCall σ α}
    {g : Bool → SessionCall τ β} {R : α → β → δ → Prop} {F : Error → δ → Prop}
    (h : Twins p q m G c x y z)
    (hf : ∀ required, TwinCalls p q m G c (f required) (g required) y z R F) :
    TwinCalls p q m G c (isRequired force >>= f) (isRequired force >>= g) y z R F := by
  refine Twin.bind_get (f := fun y => f (force || y.1.isDirty))
    (g := fun z => g (force || z.1.isDirty)) ?_
  rw [h.isDirty]
  exact hf _

theorem setDirty_twins (h : Twins p q m G c x y z) (isDirty : Bool) {F : Error → δ → Prop} :
    TwinCalls p q m G c (setDirty isDirty) (setDirty isDirty) y z (fun _ _ x' => x' = x) F :=
  Twin.modify ⟨x, rfl, h.executors, rfl⟩

variable (hp : p.Serves m) (hq : q.Serves m) (hm : m.Folds) (h : Twins p q m c.Generator c x y z)
include hp hq h

theorem update_twins (id : String) (argument : Argument) :
    TwinCalls p q m c.Generator c (Session.update id argument) (Session.update id argument) y z
      (fun _ _ x' => ∃ i, c.item id argument = .ok i ∧ x' = m.update x i.sql i.values)
      (fun _ x' => x' = x) := by
  refine bind_statement_twins h (fun s hs => ?_) fun _ => rfl
  refine (setDirty_twins h true).bind ?_
  rintro _ _ _ y₁ z₁ rfl h₁
  refine onExecutor_twins h₁ ((Executor.update_twins hp hq h₁.executors
    (fun generate hg => ⟨id, s, hs, rfl, hg⟩) argument).mono ?_ fun _ _ hx => hx)
  rintro _ _ _ ⟨i, hi, rfl⟩
  exact ⟨i, bind_ok.mpr ⟨s, hs, hi⟩, rfl⟩

include hm

theorem selectList_twins (id : String) (argument : Argument) (bounds : RowBounds) :
    TwinCalls p q m c.Generator c (Session.selectList id argument bounds)
      (Session.selectList id argument bounds) y z
      (fun rows rows' x' => rows' = rows ∧ m.Reads x x') (fun _ x' => m.Reads x x') :=
  bind_statement_twins h (fun s _ => onExecutor_twins h
    ((Executor.query_twins hp hq hm h.executors s argument bounds).mono (fun _ _ _ hx => hx)
      fun _ _ => .inl)) fun _ => .inl rfl

theorem selectOne_twins (id : String) (argument : Argument) :
    TwinCalls p q m c.Generator c (Session.selectOne id argument) (Session.selectOne id argument)
      y z (fun row row' x' => row' = row ∧ m.Reads x x') (fun _ x' => m.Reads x x') := by
  refine (selectList_twins hp hq hm h id argument .unbounded).bind ?_
  rintro _ rows x' y₁ z₁ ⟨rfl, hx⟩ h₁
  split
  · exact .pure ⟨rfl, hx⟩ h₁
  · exact .pure ⟨rfl, hx⟩ h₁
  · exact Twin.throw ⟨x', hx, h₁⟩

theorem handOut_twins (id : String) (argument : Argument) (bounds : RowBounds)
    (enough : Nat → Row → Bool) :
    TwinCalls p q m c.Generator c (Session.handOut id argument bounds enough)
      (Session.handOut id argument bounds enough) y z
      (fun handed handed' x' => handed' = handed ∧ m.Reads x x') (fun _ x' => m.Reads x x') :=
  bind_statement_twins h (fun s _ => onExecutor_twins h
    ((Executor.handOut_twins hp hq hm h.executors s argument bounds enough).mono
      (fun _ _ _ hx => hx) fun _ _ => .inl)) fun _ => .inl rfl

theorem commit_twins (force : Bool) :
    TwinCalls p q m c.Generator c (Session.commit force) (Session.commit force) y z
      (fun _ _ x' => x' = x ∨ x' = m.commit x) (fun _ x' => x' = x) := by
  refine bind_isRequired_twins h fun required => ?_
  refine (onExecutor_twins h (Executor.commit_twins hp hq hm h.executors required)).bind ?_
  rintro _ _ x' y₁ z₁ rfl h₁
  refine (setDirty_twins h₁ false).mono ?_ fun _ _ hx => hx
  rintro _ _ _ rfl
  cases required
  exacts [.inl rfl, .inr rfl]

end Session

-- ---------------------------------------------------------------------------
-- Calls
-- ---------------------------------------------------------------------------

namespace Call

/-- The calls that neither take back what was asked for nor end the session. -/
def Proceeds : Call → Prop
  | .rollback _ | .close | .drop => False
  | _ => True

/-- What a call with some reply may make of a database. -/
def Changes (m : Engine δ) (c : Configuration) (x y : δ) : Call → Except Error Reply → Prop
  | .update id argument, .ok _ =>
    ∃ i, c.item id argument = .ok i ∧ y = m.update x i.sql i.values
  | .selectList _ _ _, _ | .selectOne _ _, _ | .handOut _ _ _ _, _ => m.Reads x y
  | .commit _, .ok _ => y = x ∨ y = m.commit x
  | _, _ => y = x

def Agree (call : Call) (r r' : Reply) : Prop :=
  call.IsSelect → r' = r

variable {y : Session σ × World σ} {z : Session τ × World τ}

theorem perform_twins (hp : p.Serves m) (hq : q.Serves m) (hm : m.Folds)
    (h : Session.Twins p q m c.Generator c x y z) (call : Call) (hcall : call.Proceeds) :
    Session.TwinCalls p q m c.Generator c call.perform call.perform y z
      (fun r r' x' => call.Agree r r' ∧ call.Changes m c x x' (.ok r))
      (fun e x' => call.Changes m c x x' (.error e)) := by
  cases call with
  | selectList id argument bounds =>
    refine (Session.selectList_twins hp hq hm h id argument bounds).returning ?_
    rintro rows _ x' ⟨rfl, hx⟩
    exact ⟨fun _ => rfl, hx⟩
  | selectOne id argument =>
    refine (Session.selectOne_twins hp hq hm h id argument).returning ?_
    rintro row _ x' ⟨rfl, hx⟩
    exact ⟨fun _ => rfl, hx⟩
  | handOut id argument bounds enough =>
    refine (Session.handOut_twins hp hq hm h id argument bounds enough).returning ?_
    rintro handed _ x' ⟨rfl, hx⟩
    exact ⟨fun _ => rfl, hx⟩
  | update id argument =>
    exact (Session.update_twins hp hq h id argument).returning fun _ _ _ hx => ⟨nofun, hx⟩
  | flush =>
    exact (Session.onExecutor_twins h (Executor.flush_twins hp hq hm h.executors)).returning
      fun _ _ _ hx => ⟨nofun, hx⟩
  | commit force =>
    exact (Session.commit_twins hp hq hm h force).returning fun _ _ _ hx => ⟨nofun, hx⟩
  | clearCache =>
    exact (Session.onExecutor_twins h (Executor.clearLocalCache_twins h.executors)).returning
      fun _ _ _ hx => ⟨nofun, hx⟩
  | rollback force => exact hcall.elim
  | close => exact hcall.elim
  | drop => exact hcall.elim

end Call

end

end MappedSql
