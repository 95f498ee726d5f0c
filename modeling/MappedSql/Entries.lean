/-!
# Keyed lists

Two ways to keep values under keys in a list. `Entries` are sorted by name, by the code
points of the names, so that two of them with the same content are the same list. `Keyed`
lists hold one value for each key in the order in which the keys first came. In both a
lookup finds what was put last under its key.
-/

namespace MappedSql

/-- Values under distinct names, in ascending order of the names. -/
abbrev Entries (α : Type) := List (String × α)

namespace Entries

variable {α : Type}

def get? (entries : Entries α) (name : String) : Option α :=
  entries.lookup name

def contains (entries : Entries α) (name : String) : Bool :=
  (get? entries name).isSome

def put (name : String) (value : α) : Entries α → Entries α
  | [] => [(name, value)]
  | (other, old) :: rest =>
    if name < other then (name, value) :: (other, old) :: rest
    else if name = other then (name, value) :: rest
    else (other, old) :: put name value rest

def erase (entries : Entries α) (name : String) : Entries α :=
  entries.filter (·.1 != name)

/-- Sets the values under all the names in turn, so that the last of a name stays. -/
def ofList (pairs : List (String × α)) : Entries α :=
  pairs.foldl (fun entries (name, value) => put name value entries) []

theorem get?_put_self (entries : Entries α) (name : String) (value : α) :
    get? (put name value entries) name = some value := by
  induction entries with
  | nil => simp [put, get?]
  | cons entry rest ih =>
    obtain ⟨other, old⟩ := entry
    unfold put
    split
    · simp [get?]
    · split
      · simp [get?]
      · rename_i hne
        simpa [get?, List.lookup_cons, beq_false_of_ne hne] using ih

theorem get?_put_of_ne (entries : Entries α) {name other : String} (value : α)
    (h : other ≠ name) : get? (put name value entries) other = get? entries other := by
  induction entries with
  | nil => simp [put, get?, List.lookup_cons, beq_false_of_ne h]
  | cons entry rest ih =>
    obtain ⟨first, old⟩ := entry
    unfold put
    split
    · simp [get?, List.lookup_cons, beq_false_of_ne h]
    · split
      · rename_i he
        subst he
        simp [get?, List.lookup_cons, beq_false_of_ne h]
      · simp only [get?, List.lookup_cons] at ih ⊢
        rw [ih]

theorem get?_erase_self (entries : Entries α) (name : String) :
    get? (erase entries name) name = none := by
  induction entries with
  | nil => rfl
  | cons entry rest ih =>
    obtain ⟨first, old⟩ := entry
    by_cases h : first = name
    · simpa [erase, h] using ih
    · have h' : name ≠ first := fun e => h e.symm
      simpa [erase, h, get?, List.lookup_cons, beq_false_of_ne h'] using ih

theorem get?_erase_of_ne (entries : Entries α) {name other : String} (h : other ≠ name) :
    get? (erase entries name) other = get? entries other := by
  induction entries with
  | nil => rfl
  | cons entry rest ih =>
    obtain ⟨first, old⟩ := entry
    by_cases hf : first = name
    · subst hf
      simpa [erase, get?, List.lookup_cons, beq_false_of_ne h] using ih
    · simp only [get?, erase, List.lookup_cons] at ih ⊢
      simp [hf, List.lookup_cons, ih]

end Entries

/-- Values under distinct keys, in the order in which the keys first came. -/
abbrev Keyed (κ α : Type) := List (κ × α)

namespace Keyed

variable {κ α : Type} [BEq κ]

def get? (entries : Keyed κ α) (key : κ) : Option α :=
  (entries.find? (·.1 == key)).map (·.2)

def contains (entries : Keyed κ α) (key : κ) : Bool :=
  entries.any (·.1 == key)

def put (entries : Keyed κ α) (key : κ) (value : α) : Keyed κ α :=
  if contains entries key then
    entries.map fun (other, old) => if other == key then (other, value) else (other, old)
  else
    entries ++ [(key, value)]

def erase (entries : Keyed κ α) (key : κ) : Keyed κ α :=
  entries.filter (!·.1 == key)

section
variable [LawfulBEq κ]

theorem get?_eq_none_of_not_contains {entries : Keyed κ α} {key : κ}
    (h : ¬ contains entries key) : get? entries key = none := by
  simp only [contains, List.any_eq_true, not_exists, not_and] at h
  simpa [get?, List.find?_eq_none] using h

theorem get?_put_self (entries : Keyed κ α) (key : κ) (value : α) :
    get? (put entries key value) key = some value := by
  unfold put
  split
  · rename_i h
    induction entries with
    | nil => simp [contains] at h
    | cons entry rest ih =>
      obtain ⟨other, old⟩ := entry
      by_cases hk : other = key
      · simp [get?, hk]
      · simp only [contains, List.any_cons, beq_false_of_ne hk, Bool.false_or] at h
        simpa [get?, hk] using ih h
  · rename_i h
    have hn := get?_eq_none_of_not_contains h
    simp only [get?, Option.map_eq_none_iff] at hn
    simp [get?, List.find?_append, hn]

theorem get?_put_of_ne (entries : Keyed κ α) {key other : κ} (value : α) (h : other ≠ key) :
    get? (put entries key value) other = get? entries other := by
  have hk : (key == other) = false := beq_false_of_ne (Ne.symm h)
  unfold put
  split
  · rename_i hc
    clear hc
    induction entries with
    | nil => rfl
    | cons entry rest ih =>
      obtain ⟨first, old⟩ := entry
      simp only [get?, List.map_cons] at ih ⊢
      by_cases hf : first = key
      · subst hf
        simpa only [beq_self_eq_true, if_true, List.find?_cons, hk] using ih
      · rw [if_neg (by simpa using hf)]
        simp only [List.find?_cons]
        split
        · rfl
        · exact ih
  · simp [get?, List.find?_append, hk]

theorem get?_erase_self (entries : Keyed κ α) (key : κ) : get? (erase entries key) key = none := by
  simp [get?, erase, List.find?_eq_none]

theorem get?_erase_of_ne (entries : Keyed κ α) {key other : κ} (h : other ≠ key) :
    get? (erase entries key) other = get? entries other := by
  induction entries with
  | nil => rfl
  | cons entry rest ih =>
    obtain ⟨first, old⟩ := entry
    by_cases hf : first = key
    · subst hf
      have hk : (first == other) = false := beq_false_of_ne (Ne.symm h)
      simpa [erase, get?, List.find?_cons, hk] using ih
    · simp only [get?, erase] at ih ⊢
      simp only [List.filter_cons, beq_false_of_ne hf, Bool.not_false, if_true, List.find?_cons]
      split
      · rfl
      · exact ih

end

end Keyed

end MappedSql
