import MappedSql.Cache.Overlay
import MappedSql.Proofs.ChangeReplay

/-!
# What an overlay shows

An overlay shows a cache as it would be after the changes that the overlay holds, and its commit
makes the cache so. Both hold because no key is ever both written and removed.
-/

namespace MappedSql

variable {κ α : Type} [BEq κ]

-- ---------------------------------------------------------------------------
-- What an overlay shows
-- ---------------------------------------------------------------------------

namespace Overlay

/-- What is seen through an overlay of what is found under each key. -/
def view (o : Overlay κ α) (f : κ → Option α) : κ → Option α := fun key =>
  if o.removals.contains key then none
  else (Keyed.get? o.writes key).or (bif o.clears then none else f key)

structure Tidy (o : Overlay κ α) : Prop where
  disjoint : ∀ key ∈ o.removals, Keyed.get? o.writes key = none
  distinct : (o.writes.map (·.1)).Nodup

structure Within (keys : List κ) (o : Overlay κ α) : Prop where
  writes : ∀ entry ∈ o.writes, entry.1 ∈ keys
  removals : o.removals ⊆ keys

variable {o : Overlay κ α} {f : κ → Option α} {key : κ} {value : α} {keys : List κ}

@[simp] theorem clears_put : (o.put key value).clears = o.clears := rfl
@[simp] theorem writes_put : (o.put key value).writes = Keyed.put o.writes key value := rfl
@[simp] theorem removals_put : (o.put key value).removals = o.removals.filter (!· == key) := rfl

@[simp] theorem clears_remove : (o.remove key).clears = o.clears := rfl
@[simp] theorem writes_remove : (o.remove key).writes = Keyed.erase o.writes key := rfl
@[simp] theorem removals_remove : (o.remove key).removals = note o.removals key := rfl

theorem view_reset (o : Overlay κ α) : o.reset.view f = f := by
  funext key
  simp [view, reset, Keyed.get?]

theorem view_clear : o.clear.view f = Change.clear.after (o.view f) := by
  funext key
  simp [view, clear, Change.after, Keyed.get?]

variable [LawfulBEq κ]

theorem view_put (o : Overlay κ α) (key : κ) (value : α) :
    (o.put key value).view f = (Change.put key value).after (o.view f) := by
  funext other
  by_cases h : other = key
  · subst h
    simp [view, Change.after, Keyed.get?_put_self]
  · by_cases hm : other ∈ o.removals <;>
      simp [view, Change.after, h, hm, Keyed.get?_put_of_ne o.writes value h]

theorem mem_note {held : List κ} {other : κ} :
    other ∈ note held key ↔ other ∈ held ∨ other = key := by
  unfold note
  split
  · rename_i hc
    have hk : key ∈ held := by simpa using hc
    constructor
    · exact .inl
    · rintro (h | rfl)
      exacts [h, hk]
  · simp

theorem view_remove (o : Overlay κ α) (key : κ) :
    (o.remove key).view f = (Change.remove key).after (o.view f) := by
  funext other
  by_cases h : other = key
  · subst h
    simp [view, Change.after, mem_note]
  · by_cases hm : other ∈ o.removals <;>
      simp [view, Change.after, mem_note, h, hm, Keyed.get?_erase_of_ne o.writes h]

omit [LawfulBEq κ] in
theorem reset_tidy (o : Overlay κ α) : o.reset.Tidy := by
  constructor <;> simp [reset]

omit [LawfulBEq κ] in
theorem clear_tidy (o : Overlay κ α) : o.clear.Tidy := by
  constructor <;> simp [clear]

theorem Tidy.put (h : o.Tidy) (key : κ) (value : α) : (o.put key value).Tidy := by
  constructor
  · intro other ho
    simp only [Overlay.put, List.mem_filter, Bool.not_eq_true', beq_eq_false_iff_ne] at ho
    exact (Keyed.get?_put_of_ne o.writes value ho.2).trans (h.disjoint other ho.1)
  · exact Keyed.nodup_put h.distinct

theorem Tidy.remove (h : o.Tidy) (key : κ) : (o.remove key).Tidy := by
  constructor
  · intro other ho
    by_cases he : other = key
    · exact he ▸ Keyed.get?_erase_self _ _
    · have hm := (mem_note.mp ho).resolve_right he
      exact (Keyed.get?_erase_of_ne o.writes he).trans (h.disjoint other hm)
  · exact h.distinct.sublist (List.filter_sublist.map _)

theorem Within.put (h : o.Within keys) (hk : key ∈ keys) (value : α) :
    (o.put key value).Within keys := by
  constructor
  · intro entry he
    rcases Keyed.mem_put he with hm | rfl
    exacts [h.writes entry hm, hk]
  · exact fun _ hm => h.removals (List.mem_of_mem_filter hm)

theorem Within.remove (h : o.Within keys) (hk : key ∈ keys) : (o.remove key).Within keys := by
  constructor
  · exact fun entry he => h.writes entry (Keyed.mem_erase he)
  · intro other ho
    rcases mem_note.mp ho with hm | rfl
    exacts [h.removals hm, hk]

omit [LawfulBEq κ] [BEq κ] in
theorem reset_within (o : Overlay κ α) : o.reset.Within keys := by
  constructor <;> simp [reset]

omit [LawfulBEq κ] [BEq κ] in
theorem clear_within (o : Overlay κ α) : o.clear.Within keys := by
  constructor <;> simp [clear]

-- ---------------------------------------------------------------------------
-- What an overlay makes of a cache
-- ---------------------------------------------------------------------------

/-- The changes of an overlay in the order in which its commit makes them. -/
def changes (o : Overlay κ α) : List (Change κ α) :=
  (if o.clears then [.clear] else []) ++ o.removals.map .remove ++
    o.writes.map fun (key, value) => .put key value

omit [LawfulBEq κ] in
theorem applyTo_eq_replay (o : Overlay κ α) (c : Cache κ α) : o.applyTo c = replay o.changes c := by
  simp only [applyTo, replay, changes, List.foldl_append, List.foldl_map, Change.applyTo]
  cases o.clears <;> rfl

omit [LawfulBEq κ] in
theorem id_applyTo (o : Overlay κ α) (c : Cache κ α) : (o.applyTo c).id = c.id := by
  rw [applyTo_eq_replay]
  exact id_replay _ _

theorem replayed_removals (removed : List κ) (f : κ → Option α) (key : κ) :
    replayed (removed.map Change.remove) f key = if key ∈ removed then none else f key := by
  induction removed generalizing f with
  | nil => simp [replayed]
  | cons first rest ih =>
    rw [List.map_cons, replayed, List.foldl_cons, ← replayed, ih]
    by_cases hr : key ∈ rest <;> by_cases hf : key = first <;> simp [Change.after, hr, hf]

theorem replayed_writes (written : Keyed κ α) (hd : (written.map (·.1)).Nodup)
    (f : κ → Option α) (key : κ) :
    replayed (written.map fun (key, value) => .put key value) f key =
      (Keyed.get? written key).or (f key) := by
  induction written generalizing f with
  | nil => simp [replayed, Keyed.get?]
  | cons entry rest ih =>
    obtain ⟨first, value⟩ := entry
    rw [List.map_cons, List.nodup_cons] at hd
    rw [List.map_cons, replayed, List.foldl_cons, ← replayed, ih hd.2]
    by_cases hf : first = key
    · subst hf
      simp [Change.after, Keyed.get?_eq_none_iff.mpr hd.1, Keyed.get?_cons]
    · simp [Change.after, Ne.symm hf, Keyed.get?_cons, hf]

/-- The commit reproduces what the overlay shows, because it leaves no removed key written. -/
theorem Tidy.replayed_changes (h : o.Tidy) : replayed o.changes f = o.view f := by
  funext key
  have hc : replayed (if o.clears then [Change.clear] else []) f key =
      bif o.clears then none else f key := by
    cases o.clears <;> rfl
  simp only [changes, replayed, List.foldl_append] at hc ⊢
  rw [← replayed, ← replayed, ← replayed, replayed_writes _ h.distinct, replayed_removals]
  by_cases hm : key ∈ o.removals
  · simp [view, hm, h.disjoint key hm]
  · simp [view, hm, replayed, hc]

omit [BEq κ] [LawfulBEq κ] in
theorem Within.changes (h : o.Within keys) : ∀ change ∈ o.changes, change.Within keys := by
  intro change hm
  simp only [Overlay.changes, List.mem_append, List.mem_map] at hm
  rcases hm with (hm | ⟨key, hk, rfl⟩) | ⟨⟨key, value⟩, he, rfl⟩
  · split at hm
    · rw [List.mem_singleton.mp hm]
      trivial
    · simp at hm
  · exact h.removals hk
  · exact h.writes _ he

theorem lookup_applyTo {c : Cache κ α} (hc : c.Roomy keys) (ht : o.Tidy) (hw : o.Within keys) :
    (o.applyTo c).lookup = o.view c.lookup ∧ (o.applyTo c).Roomy keys := by
  obtain ⟨hl, hr⟩ := lookup_replay hc hw.changes
  rw [applyTo_eq_replay, ← ht.replayed_changes]
  exact ⟨hl, hr⟩

-- ---------------------------------------------------------------------------
-- The order of the changes
-- ---------------------------------------------------------------------------

/-- Two overlays with the same changes, which may be kept in another order. -/
structure Reordered (o other : Overlay κ α) : Prop where
  target : other.target = o.target
  clears : other.clears = o.clears
  writes : other.writes.Perm o.writes
  removals : other.removals.Perm o.removals

theorem Reordered.tidy {other : Overlay κ α} (h : o.Reordered other) (ht : o.Tidy) :
    other.Tidy := by
  constructor
  · intro key hm
    rw [Keyed.get?_perm ht.distinct h.writes]
    exact ht.disjoint key (h.removals.mem_iff.mp hm)
  · exact (h.writes.map _).nodup_iff.mpr ht.distinct

omit [BEq κ] [LawfulBEq κ] in
theorem Reordered.within {other : Overlay κ α} (h : o.Reordered other) (hw : o.Within keys) :
    other.Within keys :=
  ⟨fun entry hm => hw.writes entry (h.writes.mem_iff.mp hm),
    fun _ hm => hw.removals (h.removals.mem_iff.mp hm)⟩

theorem Reordered.view {other : Overlay κ α} (h : o.Reordered other) (ht : o.Tidy) :
    other.view f = o.view f := by
  funext key
  simp only [Overlay.view, Keyed.get?_perm ht.distinct h.writes, h.clears,
    List.contains_eq_mem, h.removals.mem_iff]

end Overlay

end MappedSql
