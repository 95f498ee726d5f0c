import Mathlib.Data.List.Forall2
import Mathlib.Order.Defs.Unbundled
import MappedSql.Action

/-!
# Rules for outcomes

How a composed computation ends, read off how its parts end. For `Except` a success is
taken apart into the successes of the parts. For actions, `Triple a s Q E` says what holds
after `a` was done in the state `s`: `Q` of the value and the state when it succeeds, `E` of
the error and the state when it fails. The state after a failure counts as much as the
state after a success, because what was done stays done.
-/

theorem List.Forall₂.forall_right {α β : Type} {R : α → β → Prop} {P : β → Prop} {as : List α}
    {bs : List β} (h : Forall₂ R as bs) (hP : ∀ a ∈ as, ∀ b, R a b → P b) : ∀ b ∈ bs, P b := by
  induction h with
  | nil => exact nofun
  | cons hr _ ih =>
    obtain ⟨hfirst, hrest⟩ := List.forall_mem_cons.mp hP
    exact List.forall_mem_cons.mpr ⟨hfirst _ hr, ih hrest⟩

namespace MappedSql

-- ---------------------------------------------------------------------------
-- Successes
-- ---------------------------------------------------------------------------

section
variable {ε α β : Type}

theorem bind_ok {x : Except ε α} {f : α → Except ε β} {b : β} :
    x >>= f = .ok b ↔ ∃ a, x = .ok a ∧ f a = .ok b := by
  cases x <;> simp [bind, Except.bind]

theorem pure_ok {a b : α} : (pure a : Except ε α) = .ok b ↔ a = b := by
  simp [pure, Except.pure]

theorem exists_ok_of_map {x : Except ε α} {f : α → β} {b : β}
    (h : x.toOption.map f = some b) : ∃ a, x = .ok a ∧ f a = b := by
  cases x with
  | error e => cases h
  | ok a => exact ⟨a, rfl, Option.some.inj h⟩

theorem mapM_ok {f : α → Except ε β} {as : List α} {bs : List β} :
    as.mapM f = .ok bs ↔ List.Forall₂ (fun a b => f a = .ok b) as bs := by
  induction as generalizing bs with
  | nil => cases bs <;> simp [pure_ok]
  | cons a as ih =>
    simp only [List.mapM_cons, bind_ok, pure_ok]
    constructor
    · rintro ⟨b, hb, bs, hbs, rfl⟩
      exact .cons hb (ih.mp hbs)
    · intro h
      cases h with
      | cons hb hbs => exact ⟨_, hb, _, ih.mpr hbs, rfl⟩

theorem mapM_congr {f g : α → Except ε β} {as : List α} (h : ∀ a ∈ as, f a = g a) :
    as.mapM f = as.mapM g := by
  induction as with
  | nil => rfl
  | cons a as ih =>
    obtain ⟨ha, has⟩ := List.forall_mem_cons.mp h
    rw [List.mapM_cons, List.mapM_cons, ha, ih has]

theorem exists_mapM_ok {f : α → Except ε β} {as : List α} (h : ∀ a ∈ as, ∃ b, f a = .ok b) :
    ∃ bs, as.mapM f = .ok bs := by
  induction as with
  | nil => exact ⟨[], mapM_ok.mpr .nil⟩
  | cons a as ih =>
    obtain ⟨b, hb⟩ := h a List.mem_cons_self
    obtain ⟨bs, hbs⟩ := ih fun a' hm => h a' (List.mem_cons_of_mem _ hm)
    exact ⟨b :: bs, mapM_ok.mpr (.cons hb (mapM_ok.mp hbs))⟩

theorem exists_ok_of_mapM_ok {f : α → Except ε β} {as : List α} {bs : List β}
    (h : as.mapM f = .ok bs) : ∀ a ∈ as, ∃ b, f a = .ok b := by
  induction mapM_ok.mp h with
  | nil => exact nofun
  | cons hb hbs ih => exact List.forall_mem_cons.mpr ⟨⟨_, hb⟩, ih (mapM_ok.mpr hbs)⟩

end

-- ---------------------------------------------------------------------------
-- Triples
-- ---------------------------------------------------------------------------

/-- What holds after an action in a state: `Q` when it succeeds, `E` when it fails. -/
def Triple {σ α : Type} (a : Action σ α) (s : σ) (Q : α → σ → Prop) (E : Error → σ → Prop) :
    Prop :=
  match a.outcome s with
  | (.ok value, s') => Q value s'
  | (.error e, s') => E e s'

namespace Triple

variable {σ τ α β : Type} {a : Action σ α} {f : α → Action σ β} {s : σ}
  {P Q : α → σ → Prop} {E F : Error → σ → Prop}

theorem mono (h : Triple a s P E) (hQ : ∀ value s', P value s' → Q value s')
    (hF : ∀ e s', E e s' → F e s') : Triple a s Q F := by
  unfold Triple at h ⊢
  split at h
  · exact hQ _ _ h
  · exact hF _ _ h

theorem always (hQ : ∀ value s', Q value s') (hE : ∀ e s', E e s') : Triple a s Q E := by
  unfold Triple
  split
  · exact hQ _ _
  · exact hE _ _

theorem bind {Q : β → σ → Prop} (h : Triple a s P E)
    (hf : ∀ value s', P value s' → Triple (f value) s' Q E) : Triple (a >>= f) s Q E := by
  unfold Triple at h
  rw [Triple, Action.outcome_bind]
  rcases ho : a.outcome s with ⟨r, s'⟩
  rw [ho] at h
  cases r with
  | ok value => exact hf value s' h
  | error e => exact h

theorem state {P : σ → Prop} (h : Triple a s (fun _ => P) (fun _ => P)) : P (a.outcome s).2 := by
  unfold Triple at h
  split at h <;> rename_i ho <;> rw [ho] <;> exact h

theorem of_ok {value : α} {s' : σ} (h : Triple a s Q E) (ho : a.outcome s = (.ok value, s')) :
    Q value s' := by
  rwa [Triple, ho] at h

theorem outcome_eq {value : α} {t : σ}
    (h : Triple a s (fun value' s' => value' = value ∧ s' = t) fun _ _ => False) :
    a.outcome s = (.ok value, t) := by
  unfold Triple at h
  split at h <;> rename_i ho
  · obtain ⟨rfl, rfl⟩ := h
    exact ho
  · exact h.elim

theorem returning {P Q : σ → Prop} (h : Triple a s (fun _ => P) (fun _ => P))
    (hP : ∀ s', P s' → Q s') (g : α → β) :
    Triple (a >>= fun value => Pure.pure (g value)) s (fun _ => Q) (fun _ => Q) :=
  bind (h.mono (fun _ _ => id) fun _ => hP) fun _ => hP

theorem bind_get {g : σ → Action σ β} {Q : β → σ → Prop} (h : Triple (g s) s Q E) :
    Triple (get >>= g) s Q E := by
  rw [Triple, Action.outcome_bind, Action.outcome_get]
  exact h

theorem bind_modify {g : σ → σ} {k : Unit → Action σ β} {Q : β → σ → Prop}
    (h : Triple (k ()) (g s) Q E) : Triple (modify g >>= k) s Q E := by
  rw [Triple, Action.outcome_bind, Action.outcome_modify]
  exact h

theorem bind_ofExcept {r : Except Error α} {Q : β → σ → Prop}
    (hQ : ∀ value, r = .ok value → Triple (f value) s Q E) (hE : ∀ e, r = .error e → E e s) :
    Triple (Action.ofExcept r >>= f) s Q E := by
  rw [Triple, Action.outcome_bind, Action.outcome_ofExcept]
  cases r with
  | ok value => exact hQ value rfl
  | error e => exact hE e rfl

theorem pure {value : α} (h : Q value s) : Triple (Pure.pure value : Action σ α) s Q E := h

theorem throw {e : Error} (h : E e s) : Triple (throw e : Action σ α) s Q E := h

theorem modifyGet {g : σ → α × σ} (h : Q (g s).1 (g s).2) :
    Triple (modifyGet g : Action σ α) s Q E := h

theorem modify {g : σ → σ} {Q : Unit → σ → Prop} (h : Q () (g s)) :
    Triple (modify g : Action σ Unit) s Q E := h

theorem ofExcept {r : Except Error α} (hQ : ∀ value, r = .ok value → Q value s)
    (hE : ∀ e, r = .error e → E e s) : Triple (Action.ofExcept r : Action σ α) s Q E := by
  cases r with
  | ok value => exact hQ value rfl
  | error e => exact hE e rfl

theorem attempt {Q : Except Error α → σ → Prop}
    (h : Triple a s (fun value => Q (.ok value)) (fun e => Q (.error e))) :
    Triple a.attempt s Q E := by
  unfold Triple at h
  rw [Triple, Action.outcome_attempt]
  split at h <;> rename_i ho <;> rw [ho] <;> exact h

theorem bind_attempt {f : Except Error α → Action σ β} {Q : β → σ → Prop} (h : Triple a s P E)
    (hok : ∀ value s', P value s' → Triple (f (.ok value)) s' Q F)
    (herror : ∀ e s', E e s' → Triple (f (.error e)) s' Q F) :
    Triple (a.attempt >>= f) s Q F := by
  unfold Triple at h
  rw [Triple, Action.outcome_bind, Action.outcome_attempt]
  rcases ho : a.outcome s with ⟨r, s'⟩
  rw [ho] at h
  cases r with
  | ok value => exact hok value s' h
  | error e => exact herror e s' h

theorem within {get : τ → σ} {set : σ → τ → τ} {t : τ} {Q : α → τ → Prop} {E : Error → τ → Prop}
    (h : Triple a (get t) (fun value s' => Q value (set s' t)) (fun e s' => E e (set s' t))) :
    Triple (a.within get set) t Q E := by
  unfold Triple at h
  rw [Triple, Action.outcome_within]
  split at h <;> rename_i ho <;> rw [ho] <;> exact h

theorem onSecond {t : τ} {Q : α → τ × σ → Prop} {E : Error → τ × σ → Prop}
    (h : Triple a s (fun value s' => Q value (t, s')) (fun e s' => E e (t, s'))) :
    Triple a.onSecond (t, s) Q E :=
  within h

theorem bind_onSecond {g : α → Action (τ × σ) β} {t : τ} {Q : β → τ × σ → Prop}
    {F : Error → τ × σ → Prop} (h : Triple a s P E) (hF : ∀ e s', E e s' → F e (t, s'))
    (hg : ∀ value s', P value s' → Triple (g value) (t, s') Q F) :
    Triple (a.onSecond >>= g) (t, s) Q F := by
  refine bind (P := fun value t' => t'.1 = t ∧ P value t'.2) (onSecond (h.mono ?_ hF)) ?_
  · exact fun _ _ hp => ⟨rfl, hp⟩
  · rintro value ⟨_, s'⟩ ⟨rfl, hp⟩
    exact hg value s' hp

end Triple

-- ---------------------------------------------------------------------------
-- Relations between the states before and after
-- ---------------------------------------------------------------------------

/-- However an action ends, the states before and after it are related. -/
def Action.Respects {σ α : Type} (R : σ → σ → Prop) (a : Action σ α) : Prop :=
  ∀ s, R s (a.outcome s).2

namespace Action.Respects

variable {σ τ α β : Type} {R R' : σ → σ → Prop} {a : Action σ α} {f : α → Action σ β}

theorem triple (h : a.Respects R) (s : σ) : Triple a s (fun _ => R s) (fun _ => R s) := by
  have hs := h s
  unfold Triple
  split <;> rename_i ho <;> rwa [ho] at hs

theorem attempt_triple (h : a.Respects R) (s : σ) {E : Error → σ → Prop} :
    Triple a.attempt s (fun _ => R s) E :=
  .attempt (h.triple s)

theorem of_triple (h : ∀ s, Triple a s (fun _ => R s) (fun _ => R s)) : a.Respects R :=
  fun s => (h s).state

theorem modify {g : σ → σ} (h : ∀ s, R s (g s)) : (modify g : Action σ Unit).Respects R := h

theorem mono (h : a.Respects R) (hR : ∀ s s', R s s' → R' s s') : a.Respects R' :=
  fun s => hR _ _ (h s)

theorem attempt (h : a.Respects R) : a.attempt.Respects R := h

section
variable [IsPreorder σ R]

theorem pure (value : α) : (Pure.pure value : Action σ α).Respects R := fun s => refl_of R s

theorem throw (e : Error) : (throw e : Action σ α).Respects R := fun s => refl_of R s

theorem get : (get : Action σ σ).Respects R := fun s => refl_of R s

theorem ofExcept (r : Except Error α) : (Action.ofExcept r : Action σ α).Respects R := by
  cases r with
  | ok value => exact pure value
  | error e => exact throw e

theorem after (h : a.Respects R) {s s' : σ} (hs : R s s') :
    Triple a s' (fun _ => R s) (fun _ => R s) :=
  (h.triple s').mono (fun _ _ => trans_of R hs) fun _ _ => trans_of R hs

theorem bind (h : a.Respects R) (hf : ∀ value, (f value).Respects R) :
    (a >>= f).Respects R :=
  of_triple fun s => Triple.bind (h.triple s) fun value _ hs => (hf value).after hs

end

theorem within {get : τ → σ} {set : σ → τ → τ} {R' : τ → τ → Prop} (h : a.Respects R)
    (hR : ∀ t s', R (get t) s' → R' t (set s' t)) : (a.within get set).Respects R' :=
  fun t => hR t _ (h (get t))

end Action.Respects

end MappedSql
