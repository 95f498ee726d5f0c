import Mathlib.Algebra.BigOperators.Ring.List
import Mathlib.Tactic.Ring
import MappedSql.Cache.Key

/-!
# When keys are equal

Beside its components a key has a hash, a checksum and a count, which are compared first. They are
brought up to date with each component that is added, in numbers of 64 bits that wrap around, and
equal keys must not be told apart by them. So what they are has to depend on the components alone.
Each is a number that is read off the list of components, cut to 64 bits at the end. This is so
however components are hashed, and also when different ones have one hash: then the components
decide.
-/

namespace MappedSql.CacheKey

/-- The key of components that are added one after another, when `hash` is how they are hashed. -/
def ofHashed (hash : KeyComponent → Int64) (components : List KeyComponent) : CacheKey :=
  components.foldl (fun k c => k.addHashed (hash c) c) empty

/-- The hash of a key before it is cut: a component counts with its place, the first being 1, and
with a factor for each component after it. -/
def weight (hash : KeyComponent → Int64) (components : List KeyComponent) : Int :=
  17 * 37 ^ components.length + ((components.zipIdx 1).map fun (c, place) =>
    37 ^ (components.length - place) * ((hash c).toInt * place)).sum

structure Tallied (hash : KeyComponent → Int64) (k : CacheKey) : Prop where
  count : k.count = k.components.length
  checksum : k.checksum = Int64.ofInt (k.components.map fun c => (hash c).toInt).sum
  hashcode : k.hashcode = Int64.ofInt (weight hash k.components)

variable {hash : KeyComponent → Int64} {k l : CacheKey}

theorem weight_concat (hash : KeyComponent → Int64) (components : List KeyComponent)
    (c : KeyComponent) : weight hash (components ++ [c]) =
      37 * weight hash components + (hash c).toInt * (components.length + 1) := by
  have hearlier : (components.zipIdx 1).map (fun (c, place) =>
        37 ^ (components.length + 1 - place) * ((hash c).toInt * (place : Int))) =
      (components.zipIdx 1).map fun (c, place) =>
        37 * (37 ^ (components.length - place) * ((hash c).toInt * (place : Int))) := by
    refine List.map_congr_left fun (c, place) hplace => ?_
    obtain ⟨-, hlast, -⟩ := List.mem_zipIdx hplace
    dsimp only
    rw [Nat.sub_add_comm (by omega), pow_succ]
    ring
  simp only [weight, List.zipIdx_append, List.map_append, List.sum_append, List.length_append,
    List.length_singleton, hearlier, List.sum_map_mul_left]
  simp only [List.zipIdx_singleton, List.map_singleton, List.sum_singleton]
  have hself : components.length + 1 - (1 + components.length) = 0 := by omega
  rw [hself]
  push_cast
  ring

namespace Tallied

theorem empty (hash : KeyComponent → Int64) : CacheKey.empty.Tallied hash where
  count := rfl
  checksum := rfl
  hashcode := rfl

/-- Sums and products may be cut to 64 bits after each step or at the end. -/
theorem addHashed (h : k.Tallied hash) (c : KeyComponent) :
    (k.addHashed (hash c) c).Tallied hash where
  count := by
    rw [CacheKey.addHashed, h.count, List.length_append, List.length_singleton]
  checksum := by
    rw [CacheKey.addHashed, h.checksum, List.map_append, List.sum_append, Int64.ofInt_add,
      List.map_singleton, List.sum_singleton, Int64.ofInt_toInt]
  hashcode := by
    have hplace : Int64.ofNat (k.components.length + 1) =
        Int64.ofInt ((k.components.length : Int) + 1) := by
      rw [← Int64.ofInt_eq_ofNat, Nat.cast_add_one]
    calc (k.addHashed (hash c) c).hashcode
      _ = 37 * k.hashcode + hash c * Int64.ofNat (k.count + 1) := rfl
      _ = Int64.ofInt 37 * Int64.ofInt (weight hash k.components) +
            Int64.ofInt (hash c).toInt * Int64.ofInt ((k.components.length : Int) + 1) := by
        rw [h.hashcode, h.count, hplace, Int64.ofInt_toInt]
        rfl
      _ = Int64.ofInt (weight hash (k.components ++ [c])) := by
        rw [← Int64.ofInt_mul, ← Int64.ofInt_mul, ← Int64.ofInt_add, weight_concat]

theorem eq_iff (hk : k.Tallied hash) (hl : l.Tallied hash) :
    k = l ↔ k.components = l.components := by
  refine ⟨congrArg components, fun h => ?_⟩
  have hcount : k.count = l.count := by rw [hk.count, hl.count, h]
  have hchecksum : k.checksum = l.checksum := by rw [hk.checksum, hl.checksum, h]
  have hhashcode : k.hashcode = l.hashcode := by rw [hk.hashcode, hl.hashcode, h]
  cases k
  cases l
  rw [mk.injEq]
  exact ⟨hhashcode, hchecksum, hcount, h⟩

end Tallied

-- ---------------------------------------------------------------------------
-- Keys that are put together
-- ---------------------------------------------------------------------------

theorem components_foldl (hash : KeyComponent → Int64) (k : CacheKey) (cs : List KeyComponent) :
    (cs.foldl (fun k c => k.addHashed (hash c) c) k).components = k.components ++ cs := by
  induction cs generalizing k with
  | nil => rw [List.foldl_nil, List.append_nil]
  | cons c cs ih =>
    rw [List.foldl_cons, ih, addHashed, List.append_assoc, List.singleton_append]

@[simp] theorem components_ofHashed (hash : KeyComponent → Int64) (cs : List KeyComponent) :
    (ofHashed hash cs).components = cs :=
  components_foldl hash empty cs

theorem tallied_foldl (h : k.Tallied hash) (cs : List KeyComponent) :
    (cs.foldl (fun k c => k.addHashed (hash c) c) k).Tallied hash := by
  induction cs generalizing k with
  | nil => exact h
  | cons c cs ih => exact ih (h.addHashed c)

theorem tallied_ofHashed (hash : KeyComponent → Int64) (cs : List KeyComponent) :
    (ofHashed hash cs).Tallied hash :=
  tallied_foldl (.empty hash) cs

theorem ofComponents_eq_ofHashed (cs : List KeyComponent) :
    ofComponents cs = ofHashed KeyComponent.hash cs :=
  rfl

theorem beq_eq (k l : CacheKey) : (k == l) =
    (k.hashcode == l.hashcode && k.checksum == l.checksum && k.count == l.count &&
      k.components == l.components) := by
  cases k
  cases l
  rw [Bool.eq_iff_iff]
  simp [and_assoc]

/-- Keys are equal just when they were put together from the same components in the same order,
though their numbers are compared first. Equal keys are hashed and shown alike. The numbers of a key
are those of its components. -/
theorem keys_equal_as_components (hash : KeyComponent → Int64) (cs ds : List KeyComponent) :
    let k := ofHashed hash cs
    let l := ofHashed hash ds
    (k == l) = (k.hashcode == l.hashcode && k.checksum == l.checksum && k.count == l.count &&
        k.components == l.components) ∧
      (k == l ↔ cs = ds) ∧
      (k == l → k.encode = l.encode ∧ k.count = l.count ∧ k.display = l.display) ∧
      k.components = cs ∧ k.Tallied hash := by
  intro k l
  have hk : k.Tallied hash := tallied_ofHashed hash cs
  have hl : l.Tallied hash := tallied_ofHashed hash ds
  refine ⟨beq_eq k l, ?_, ?_, components_ofHashed hash cs, hk⟩
  · rw [beq_iff_eq, hk.eq_iff hl, components_ofHashed, components_ofHashed]
  · intro h
    simp only [beq_eq, Bool.and_eq_true, beq_iff_eq] at h
    obtain ⟨⟨⟨hhashcode, hchecksum⟩, hcount⟩, hcomponents⟩ := h
    refine ⟨?_, hcount, ?_⟩
    · rw [encode, encode, hhashcode]
    · rw [display, display, hhashcode, hchecksum, hcomponents]

/-- A count that is too large and a list make one key with the largest count and the text of that
list. -/
theorem large_count_and_list_make_one_key :
    let k := ofComponents [.ofNat (2 ^ 63), .ofArgument (.list [.ofInt 7])]
    let l := ofComponents [.ofNat (2 ^ 63 - 1), .ofArgument (.ofText "[7]")]
    k == l ∧ k.encode = l.encode ∧ k.count = l.count ∧ k.display = l.display := by
  have hsame : [KeyComponent.ofNat (2 ^ 63), .ofArgument (.list [.ofInt 7])] =
      [.ofNat (2 ^ 63 - 1), .ofArgument (.ofText "[7]")] := by
    with_unfolding_all rfl
  obtain ⟨-, hequal, halike, -, -⟩ := keys_equal_as_components KeyComponent.hash
    [.ofNat (2 ^ 63), .ofArgument (.list [.ofInt 7])]
    [.ofNat (2 ^ 63 - 1), .ofArgument (.ofText "[7]")]
  exact ⟨hequal.mpr hsame, halike (hequal.mpr hsame)⟩

/-- Components that are hashed alike leave all numbers as they are when they change places, but the
keys differ. -/
example :
    let k := ofHashed (fun _ => 5) [.text "x", .text "y"]
    let l := ofHashed (fun _ => 5) [.text "y", .text "x"]
    k.hashcode = l.hashcode ∧ k.checksum = l.checksum ∧ k.count = l.count ∧ k ≠ l := by
  decide

end MappedSql.CacheKey
