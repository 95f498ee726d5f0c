import Mathlib.Data.List.Nodup
import Mathlib.Data.List.Perm.Subperm
import MappedSql.Cache.Options
import MappedSql.Cache.Pool

/-!
# What a cache holds

Whatever the layers of a cache do, it never holds anything that was not put into it: the
entries after an operation are among those before it and the one that is put. A cache with
room for all keys that are used, and without a layer that clears it by time, loses nothing
either. Its operations are those of its entries, whatever order its layers keep the keys in.
-/

namespace MappedSql

namespace Keyed

variable {κ α : Type} [BEq κ] [LawfulBEq κ]

theorem mem_of_get? {entries : Keyed κ α} {key : κ} {value : α}
    (h : get? entries key = some value) : (key, value) ∈ entries := by
  obtain ⟨⟨other, found⟩, hf, rfl⟩ := Option.map_eq_some_iff.mp h
  have hk : other = key := by simpa using List.find?_some hf
  exact hk ▸ List.mem_of_find?_eq_some hf

theorem mem_put {entries : Keyed κ α} {key : κ} {value : α} {entry : κ × α}
    (h : entry ∈ put entries key value) : entry ∈ entries ∨ entry = (key, value) := by
  unfold put at h
  split at h
  · obtain ⟨⟨other, old⟩, hm, rfl⟩ := List.mem_map.mp h
    dsimp only
    split
    · rename_i hk
      exact .inr (by rw [eq_of_beq hk])
    · exact .inl hm
  · simpa using h

omit [LawfulBEq κ] in
theorem mem_erase {entries : Keyed κ α} {key : κ} {entry : κ × α} (h : entry ∈ erase entries key) :
    entry ∈ entries :=
  List.mem_of_mem_filter h

theorem perm_cons_erase {entries : Keyed κ α} {key : κ} {value : α}
    (hn : (entries.map (·.1)).Nodup) (h : get? entries key = some value) :
    entries.Perm ((key, value) :: erase entries key) := by
  induction entries with
  | nil => cases h
  | cons entry rest ih =>
    obtain ⟨other, old⟩ := entry
    obtain ⟨hnew, hn⟩ := List.nodup_cons.mp hn
    by_cases hk : other = key
    · subst hk
      have hrest : erase rest other = rest := by
        refine List.filter_eq_self.mpr fun entry hm => ?_
        have hne : entry.1 ≠ other := fun he => hnew (List.mem_map.mpr ⟨entry, hm, he⟩)
        simp [hne]
      have hv : old = value := by simpa [get?] using h
      have he : erase ((other, old) :: rest) other = rest := by simpa [erase] using hrest
      rw [he, hv]
    · have hg : get? rest key = some value := by simpa [get?, hk] using h
      have he : erase ((other, old) :: rest) key = (other, old) :: erase rest key := by
        simp [erase, hk]
      rw [he]
      exact ((ih hn hg).cons _).trans (.swap ..)

end Keyed

namespace Cache

variable {κ α : Type}

@[simp] theorem entries_clear (c : Cache κ α) : c.clear.entries = [] := by
  induction c with
  | store => rfl
  | _ => simp_all [clear, entries]

@[simp] theorem id_clear (c : Cache κ α) : c.clear.id = c.id := by
  induction c with
  | store => rfl
  | _ => simp_all [clear, id]

variable [BEq κ]

-- ---------------------------------------------------------------------------
-- Nothing comes from elsewhere
-- ---------------------------------------------------------------------------

theorem entries_remove_subset [LawfulBEq κ] (c : Cache κ α) (key : κ) :
    (c.remove key).2.entries ⊆ c.entries := by
  induction c with
  | store => exact fun _ h => Keyed.mem_erase h
  | scheduled interval inner ages ih =>
    simp only [remove]
    split
    · simp [entries]
    · simpa [entries] using ih
  | _ => simp_all [remove, entries]

theorem entries_get_subset (c : Cache κ α) (key : κ) : (c.get key).2.entries ⊆ c.entries := by
  induction c with
  | scheduled interval inner ages ih =>
    simp only [get]
    split
    · simp [entries]
    · simpa [entries] using ih
  | _ => simp_all [get, entries]

theorem mem_of_get [LawfulBEq κ] {c : Cache κ α} {key : κ} {value : α}
    (h : (c.get key).1 = some value) : (key, value) ∈ c.entries := by
  induction c with
  | store => exact Keyed.mem_of_get? h
  | scheduled interval inner ages ih =>
    simp only [get] at h
    split at h
    · cases h
    · exact ih h
  | leastRecent _ _ _ ih => exact ih h
  | firstIn _ _ _ ih => exact ih h
  | copying _ ih => exact ih h
  | counting _ _ _ ih => exact ih h

theorem mem_entries_put [LawfulBEq κ] {c : Cache κ α} {key : κ} {value : α} {entry : κ × α}
    (h : entry ∈ (c.put key value).entries) : entry ∈ c.entries ∨ entry = (key, value) := by
  fun_induction put c key value with
  | case1 => exact Keyed.mem_put h
  | case3 _ _ _ _ _ _ _ _ hroom ih =>
    rw [if_pos hroom] at h
    exact ih h
  | case4 _ _ _ _ _ eldest _ _ hfull ih =>
    -- the least recent one goes after the put
    rw [if_neg hfull] at h
    exact ih (entries_remove_subset _ _ h)
  | case7 _ _ _ _ _ _ _ hroom ih =>
    rw [if_pos hroom] at h
    exact ih h
  | case8 _ _ _ _ _ _ _ hfull ih =>
    -- the first one goes before the put
    rw [if_neg hfull] at h
    exact (ih h).imp_left fun hm => entries_remove_subset _ _ hm
  | case10 interval inner ages key value ih1 ih2 =>
    simp only [entries] at h
    split at h
    · exact .inr (by simpa using ih1 h)
    · exact ih2 h
  | case2 _ _ _ _ _ _ _ ih => exact ih h
  | case5 _ _ _ _ _ _ ih => exact ih h
  | case6 _ _ _ _ _ _ ih => exact ih h
  | case9 _ _ _ _ _ ih => exact ih h
  | case11 _ _ _ ih => exact ih h
  | case12 _ _ _ _ _ ih => exact ih h

@[simp] theorem id_remove (c : Cache κ α) (key : κ) : (c.remove key).2.id = c.id := by
  induction c with
  | scheduled interval inner ages ih =>
    simp only [remove]
    split <;> simp [id, ih]
  | _ => simp_all [remove, id]

@[simp] theorem id_get (c : Cache κ α) (key : κ) : (c.get key).2.id = c.id := by
  induction c with
  | scheduled interval inner ages ih =>
    simp only [get]
    split <;> simp [id, ih]
  | _ => simp_all [get, id]

@[simp] theorem id_put (c : Cache κ α) (key : κ) (value : α) : (c.put key value).id = c.id := by
  fun_induction put c key value with
  | case1 => rfl
  | case3 _ _ _ _ _ _ _ _ hroom ih => rw [if_pos hroom]; exact ih
  | case4 _ _ _ _ _ _ _ _ hfull ih => rw [if_neg hfull]; exact (id_remove _ _).trans ih
  | case7 _ _ _ _ _ _ _ hroom ih => rw [if_pos hroom]; exact ih
  | case8 _ _ _ _ _ _ _ hfull ih => rw [if_neg hfull]; exact ih.trans (id_remove _ _)
  | case10 interval inner ages key value ih1 ih2 =>
    simp only [id]
    split
    · simpa using ih1
    · exact ih2
  | case2 _ _ _ _ _ _ _ ih => exact ih
  | case5 _ _ _ _ _ _ ih => exact ih
  | case6 _ _ _ _ _ _ ih => exact ih
  | case9 _ _ _ _ _ ih => exact ih
  | case11 _ _ _ ih => exact ih
  | case12 _ _ _ _ _ ih => exact ih

-- ---------------------------------------------------------------------------
-- Nothing is lost where there is room
-- ---------------------------------------------------------------------------

/-- Every layer that bounds the store has room for `keys` and keeps only such, and no layer
clears the store by time. -/
def Roomy (keys : List κ) : Cache κ α → Prop
  | .store _ _ => True
  | .leastRecent capacity held inner | .firstIn capacity held inner =>
    held.Nodup ∧ held ⊆ keys ∧ keys.length ≤ capacity ∧ inner.Roomy keys
  | .scheduled _ _ _ => False
  | .copying inner | .counting _ _ inner => inner.Roomy keys

variable [LawfulBEq κ] {keys : List κ} {c : Cache κ α}

omit [BEq κ] [LawfulBEq κ] in
theorem Roomy.clear (h : c.Roomy keys) : c.clear.Roomy keys := by
  induction c with
  | store => trivial
  | leastRecent _ _ _ ih => exact ⟨List.nodup_nil, List.nil_subset _, h.2.2.1, ih h.2.2.2⟩
  | firstIn _ _ _ ih => exact ⟨List.nodup_nil, List.nil_subset _, h.2.2.1, ih h.2.2.2⟩
  | scheduled => exact h.elim
  | copying _ ih => exact ih h
  | counting _ _ _ ih => exact ih h

theorem promote_perm (held : List κ) (key : κ) : (promote held key).Perm held := by
  unfold promote
  split
  · rename_i hc
    exact (List.perm_append_singleton _ _).trans
      (List.perm_cons_erase (List.contains_iff_mem.mp hc)).symm
  · exact .refl _

theorem Roomy.get (h : c.Roomy keys) (key : κ) :
    (c.get key).1 = Keyed.get? c.entries key ∧ (c.get key).2.entries = c.entries ∧
      (c.get key).2.Roomy keys := by
  induction c with
  | store => exact ⟨rfl, rfl, trivial⟩
  | leastRecent _ held _ ih =>
    obtain ⟨hv, he, hr⟩ := ih h.2.2.2
    have hp := promote_perm held key
    exact ⟨hv, he, hp.nodup_iff.mpr h.1, List.Subset.trans hp.subset h.2.1, h.2.2.1, hr⟩
  | firstIn _ _ _ ih =>
    obtain ⟨hv, he, hr⟩ := ih h.2.2.2
    exact ⟨hv, he, h.1, h.2.1, h.2.2.1, hr⟩
  | scheduled => exact h.elim
  | copying _ ih => exact ih h
  | counting _ _ _ ih => exact ih h

theorem Roomy.remove (h : c.Roomy keys) (key : κ) :
    (c.remove key).2.entries = Keyed.erase c.entries key ∧ (c.remove key).2.Roomy keys := by
  induction c with
  | store => exact ⟨rfl, trivial⟩
  | leastRecent _ held _ ih =>
    obtain ⟨he, hr⟩ := ih h.2.2.2
    exact ⟨he, h.1.erase _, List.Subset.trans List.erase_subset h.2.1, h.2.2.1, hr⟩
  | firstIn _ _ _ ih =>
    obtain ⟨he, hr⟩ := ih h.2.2.2
    exact ⟨he, h.1.filter _, fun _ hm => h.2.1 (List.mem_of_mem_filter hm), h.2.2.1, hr⟩
  | scheduled => exact h.elim
  | copying _ ih => exact ih h
  | counting _ _ _ ih => exact ih h

omit [BEq κ] [LawfulBEq κ] in
theorem length_lt_of_new {held : List κ} {capacity : Nat} {key : κ} (hn : held.Nodup)
    (hs : held ⊆ keys) (hc : keys.length ≤ capacity) (hk : key ∈ keys) (hnew : key ∉ held) :
    held.length < capacity := by
  have hn' : (key :: held).Nodup := List.nodup_cons.mpr ⟨hnew, hn⟩
  have hs' : key :: held ⊆ keys := List.cons_subset.mpr ⟨hk, hs⟩
  exact Nat.lt_of_lt_of_le (List.subperm_of_subset hn' hs').length_le hc

section
variable {held : List κ} {capacity : Nat} {inner : Cache κ α} {key : κ}

theorem put_leastRecent_of_mem (hm : key ∈ held) (value : α) :
    (leastRecent capacity held inner).put key value =
      .leastRecent capacity (promote held key) (inner.put key value) := by
  cases held with
  | nil => simp at hm
  | cons eldest rest => rw [put, if_pos (List.contains_iff_mem.mpr hm)]

theorem put_leastRecent_of_room (hm : key ∉ held) (hc : held.length < capacity) (value : α) :
    (leastRecent capacity held inner).put key value =
      .leastRecent capacity (held ++ [key]) (inner.put key value) := by
  cases held with
  | nil => simp [put]
  | cons eldest rest => rw [put, if_neg (mt List.contains_iff_mem.mp hm), if_pos hc]

theorem put_firstIn_of_mem (hm : key ∈ held) (value : α) :
    (firstIn capacity held inner).put key value = .firstIn capacity held (inner.put key value) := by
  cases held with
  | nil => simp at hm
  | cons eldest rest => rw [put, if_pos (List.contains_iff_mem.mpr hm)]

theorem put_firstIn_of_room (hm : key ∉ held) (hc : held.length < capacity) (value : α) :
    (firstIn capacity held inner).put key value =
      .firstIn capacity (held ++ [key]) (inner.put key value) := by
  cases held with
  | nil => simp [put]
  | cons eldest rest => rw [put, if_neg (mt List.contains_iff_mem.mp hm), if_pos hc]

end

theorem Roomy.put (h : c.Roomy keys) {key : κ} (hk : key ∈ keys) (value : α) :
    (c.put key value).entries = Keyed.put c.entries key value ∧
      (c.put key value).Roomy keys := by
  induction c with
  | store => simp [Cache.put, entries, Roomy]
  | leastRecent capacity held inner ih =>
    obtain ⟨hn, hs, hc, hi⟩ := h
    obtain ⟨he, hr⟩ := ih hi
    by_cases hm : key ∈ held
    · have hp := promote_perm held key
      rw [put_leastRecent_of_mem hm]
      exact ⟨he, hp.nodup_iff.mpr hn, List.Subset.trans hp.subset hs, hc, hr⟩
    · rw [put_leastRecent_of_room hm (length_lt_of_new hn hs hc hk hm)]
      have hs' : held ++ [key] ⊆ keys := List.append_subset.mpr ⟨hs, by simpa using hk⟩
      exact ⟨he, by simpa using hn.concat hm, hs', hc, hr⟩
  | firstIn capacity held inner ih =>
    obtain ⟨hn, hs, hc, hi⟩ := h
    obtain ⟨he, hr⟩ := ih hi
    by_cases hm : key ∈ held
    · rw [put_firstIn_of_mem hm]
      exact ⟨he, hn, hs, hc, hr⟩
    · rw [put_firstIn_of_room hm (length_lt_of_new hn hs hc hk hm)]
      have hs' : held ++ [key] ⊆ keys := List.append_subset.mpr ⟨hs, by simpa using hk⟩
      exact ⟨he, by simpa using hn.concat hm, hs', hc, hr⟩
  | scheduled => exact h.elim
  | copying _ ih => simpa [Cache.put, entries, Roomy] using ih h
  | counting _ _ _ ih => simpa [Cache.put, entries, Roomy] using ih h

end Cache

end MappedSql
