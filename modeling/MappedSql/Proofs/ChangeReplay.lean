import MappedSql.Proofs.CacheContent

/-!
# Replaying changes

What is found under each key after a series of changes of a cache. For a cache with room for
all keys of the changes this depends on nothing but what was found there before.
-/

namespace MappedSql

variable {κ α : Type} [BEq κ]

-- ---------------------------------------------------------------------------
-- Changes and their replay
-- ---------------------------------------------------------------------------

inductive Change (κ α : Type)
  | put (key : κ) (value : α)
  | remove (key : κ)
  | clear

namespace Change

def applyTo : Change κ α → Cache κ α → Cache κ α
  | .put key value, c => c.put key value
  | .remove key, c => (c.remove key).2
  | .clear, c => c.clear

def after : Change κ α → (κ → Option α) → κ → Option α
  | .put key value, f => fun other => if other == key then some value else f other
  | .remove key, f => fun other => if other == key then none else f other
  | .clear, _ => fun _ => none

def Within (keys : List κ) : Change κ α → Prop
  | .put key _ | .remove key => key ∈ keys
  | .clear => True

end Change

def replay (changes : List (Change κ α)) (c : Cache κ α) : Cache κ α :=
  changes.foldl (fun c change => change.applyTo c) c

def replayed (changes : List (Change κ α)) (f : κ → Option α) : κ → Option α :=
  changes.foldl (fun f change => change.after f) f

theorem id_replay (changes : List (Change κ α)) (c : Cache κ α) :
    (replay changes c).id = c.id := by
  induction changes generalizing c with
  | nil => rfl
  | cons change changes ih =>
    refine (ih _).trans ?_
    cases change with
    | put key value => exact Cache.id_put c key value
    | remove key => exact Cache.id_remove c key
    | clear => exact Cache.id_clear c

def Cache.lookup (c : Cache κ α) : κ → Option α := Keyed.get? c.entries

section
variable [LawfulBEq κ]

theorem Keyed.get?_put (entries : Keyed κ α) (key : κ) (value : α) :
    get? (put entries key value) = (Change.put key value).after (get? entries) := by
  funext other
  simp only [Change.after]
  by_cases h : other = key
  · subst h; simp [get?_put_self]
  · simp [h, get?_put_of_ne entries value h]

theorem Keyed.get?_erase (entries : Keyed κ α) (key : κ) :
    get? (erase entries key) = (Change.remove (α := α) key).after (get? entries) := by
  funext other
  simp only [Change.after]
  by_cases h : other = key
  · subst h; simp [get?_erase_self]
  · simp [h, get?_erase_of_ne entries h]

theorem Keyed.get?_cons (first : κ) (value : α) (rest : Keyed κ α) (key : κ) :
    get? ((first, value) :: rest) key = if first == key then some value else get? rest key := by
  simp only [get?, List.find?_cons]
  split <;> simp_all

theorem Keyed.get?_eq_none_iff {entries : Keyed κ α} {key : κ} :
    get? entries key = none ↔ key ∉ entries.map (·.1) := by
  simp only [get?, Option.map_eq_none_iff, List.find?_eq_none, List.mem_map, not_exists, not_and,
    beq_iff_eq]

theorem Keyed.get?_eq_some_iff {entries : Keyed κ α} (hd : (entries.map (·.1)).Nodup) {key : κ}
    {value : α} : get? entries key = some value ↔ (key, value) ∈ entries := by
  refine ⟨mem_of_get?, fun hm => ?_⟩
  induction entries with
  | nil => simp at hm
  | cons entry rest ih =>
    obtain ⟨first, old⟩ := entry
    rw [List.map_cons, List.nodup_cons] at hd
    rw [get?_cons]
    rcases List.mem_cons.mp hm with he | hr
    · cases he
      simp
    · have hne : first ≠ key := fun he => hd.1 (he ▸ List.mem_map_of_mem (f := (·.1)) hr)
      simpa [hne] using ih hd.2 hr

theorem Keyed.get?_perm {entries others : Keyed κ α} (hd : (entries.map (·.1)).Nodup)
    (hp : others.Perm entries) : get? others = get? entries := by
  funext key
  have hd' : (others.map (·.1)).Nodup := (hp.map _).nodup_iff.mpr hd
  exact Option.ext fun value => by rw [get?_eq_some_iff hd, get?_eq_some_iff hd', hp.mem_iff]

theorem Keyed.nodup_put {entries : Keyed κ α} {key : κ} {value : α}
    (h : (entries.map (·.1)).Nodup) : ((put entries key value).map (·.1)).Nodup := by
  unfold put
  split
  · rw [List.map_map]
    convert h using 2
    funext entry
    simp only [Function.comp_apply]
    split <;> rfl
  · rename_i hc
    have hk : key ∉ entries.map (·.1) := by
      simpa [contains] using hc
    simpa using h.concat hk

theorem Change.lookup_applyTo {keys : List κ} {c : Cache κ α} (hc : c.Roomy keys)
    {change : Change κ α} (h : change.Within keys) :
    (change.applyTo c).lookup = change.after c.lookup ∧ (change.applyTo c).Roomy keys := by
  cases change with
  | put key value =>
    obtain ⟨he, hr⟩ := hc.put h value
    exact ⟨by simp only [applyTo, Cache.lookup, he, Keyed.get?_put], hr⟩
  | remove key =>
    obtain ⟨he, hr⟩ := hc.remove key
    exact ⟨by simp only [applyTo, Cache.lookup, he, Keyed.get?_erase], hr⟩
  | clear => exact ⟨by simp only [applyTo, Cache.lookup, Cache.entries_clear]; rfl, hc.clear⟩

theorem lookup_replay {keys : List κ} {changes : List (Change κ α)} {c : Cache κ α}
    (hc : c.Roomy keys) (h : ∀ change ∈ changes, change.Within keys) :
    (replay changes c).lookup = replayed changes c.lookup ∧ (replay changes c).Roomy keys := by
  induction changes generalizing c with
  | nil => exact ⟨rfl, hc⟩
  | cons change changes ih =>
    obtain ⟨hl, hr⟩ := change.lookup_applyTo hc (h change (by simp))
    obtain ⟨hls, hrs⟩ := ih hr fun other ho => h other (by simp [ho])
    exact ⟨by rw [replay, List.foldl_cons, ← replay, hls, hl]; rfl, hrs⟩

end

end MappedSql
