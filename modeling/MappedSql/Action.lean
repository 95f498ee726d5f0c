import MappedSql.Error

/-!
# Actions

An action reads and changes a state, and ends with a value or with an error. What it did to
the state before an error stays done.
-/

namespace MappedSql

abbrev Action (σ : Type) := ExceptT Error (StateM σ)

namespace Action

variable {σ τ α : Type}

/-- How an action ends in a state, and the state after it. -/
def outcome (a : Action σ α) (s : σ) : Except Error α × σ :=
  StateT.run (ExceptT.run a) s

def ofOutcome (f : σ → Except Error α × σ) : Action σ α :=
  ExceptT.mk f

def ofExcept : Except Error α → Action σ α
  | .ok value => pure value
  | .error e => throw e

def attempt (a : Action σ α) : Action σ (Except Error α) :=
  ofOutcome fun s => ((.ok (a.outcome s).1), (a.outcome s).2)

def within (get : τ → σ) (set : σ → τ → τ) (a : Action σ α) : Action τ α :=
  ofOutcome fun t => ((a.outcome (get t)).1, set (a.outcome (get t)).2 t)

def onSecond (a : Action σ α) : Action (τ × σ) α :=
  a.within (·.2) fun s t => (t.1, s)

/-! ### Outcomes -/

variable {β : Type}

@[simp] theorem outcome_pure (a : α) (s : σ) : (pure a : Action σ α).outcome s = (.ok a, s) := rfl

@[simp] theorem outcome_throw (e : Error) (s : σ) :
    (throw e : Action σ α).outcome s = (.error e, s) := rfl

theorem outcome_bind (a : Action σ α) (f : α → Action σ β) (s : σ) :
    (a >>= f).outcome s =
      match a.outcome s with
      | (.ok value, s') => (f value).outcome s'
      | (.error e, s') => (.error e, s') := by
  simp only [outcome, bind, ExceptT.bind, ExceptT.run, ExceptT.mk, StateT.bind, StateT.run,
    ExceptT.bindCont]
  rcases a s with ⟨r, s'⟩
  cases r <;> rfl

@[simp] theorem outcome_get (s : σ) : (get : Action σ σ).outcome s = (.ok s, s) := rfl

@[simp] theorem outcome_modify (f : σ → σ) (s : σ) :
    (modify f : Action σ Unit).outcome s = (.ok (), f s) := rfl

@[simp] theorem outcome_set (t s : σ) : (set t : Action σ Unit).outcome s = (.ok (), t) := rfl

@[simp] theorem outcome_ofOutcome (f : σ → Except Error α × σ) (s : σ) :
    (ofOutcome f).outcome s = f s := rfl

@[simp] theorem outcome_ofExcept (r : Except Error α) (s : σ) :
    (ofExcept r : Action σ α).outcome s = (r, s) := by
  cases r <;> rfl

@[simp] theorem outcome_attempt (a : Action σ α) (s : σ) :
    a.attempt.outcome s = (.ok (a.outcome s).1, (a.outcome s).2) := rfl

@[simp] theorem outcome_within (get : τ → σ) (set : σ → τ → τ) (a : Action σ α) (t : τ) :
    (a.within get set).outcome t = ((a.outcome (get t)).1, set (a.outcome (get t)).2 t) := rfl

@[simp] theorem outcome_map (f : α → β) (a : Action σ α) (s : σ) :
    (f <$> a).outcome s = ((a.outcome s).1.map f, (a.outcome s).2) := by
  rw [← bind_pure_comp, outcome_bind]
  rcases a.outcome s with ⟨r, s'⟩
  cases r <;> rfl

end Action

end MappedSql
