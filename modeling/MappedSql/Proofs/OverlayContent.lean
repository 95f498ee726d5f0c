import MappedSql.Proofs.OverlayReplay

/-!
# What overlays hold and publish

Where the entries of a cache come from once overlays have been committed on it, and those of
the overlays of one transaction after each of their operations. Nothing here depends on the
layers of the caches: they may drop entries, but they add none.
-/

namespace MappedSql

variable {κ α : Type} [BEq κ] [LawfulBEq κ]

namespace CachePool

def Has (p : CachePool κ α) (i : Nat) (entry : κ × α) : Prop :=
  ∃ c, p.caches[i]? = some c ∧ entry ∈ c.entries

variable {p : CachePool κ α} {i : Nat} {entry : κ × α}

omit [BEq κ] [LawfulBEq κ] in
theorem Has.of_modify {r : CacheRef} {g : Cache κ α → Cache κ α} (h : (p.modify r g).Has i entry) :
    p.Has i entry ∧ i ≠ r.index ∨
      i = r.index ∧ ∃ c, p.caches[i]? = some c ∧ entry ∈ (g c).entries := by
  obtain ⟨c, hc, he⟩ := h
  rw [modify, List.getElem?_modify] at hc
  obtain ⟨old, ho, rfl⟩ := Option.map_eq_some_iff.mp hc
  by_cases hi : r.index = i
  · rw [if_pos hi] at he
    exact .inr ⟨hi.symm, old, ho, he⟩
  · rw [if_neg hi] at he
    exact .inl ⟨⟨old, ho, he⟩, Ne.symm hi⟩

omit [LawfulBEq κ] in
theorem Has.of_get {r : CacheRef} {key : κ} (h : (p.get r key).2.Has i entry) : p.Has i entry := by
  rcases h.of_modify with ⟨h, -⟩ | ⟨-, c, hc, he⟩
  · exact h
  · exact ⟨c, hc, Cache.entries_get_subset _ _ he⟩

theorem has_of_get {r : CacheRef} {key : κ} {value : α} (h : (p.get r key).1 = some value) :
    p.Has r.index (key, value) := by
  obtain ⟨c, hc, hg⟩ := Option.bind_eq_some_iff.mp h
  exact ⟨c, hc, Cache.mem_of_get hg⟩

end CachePool

namespace Overlay

variable {o : Overlay κ α} {c : Cache κ α} {entry : κ × α}

theorem mem_foldl_remove {removals : List κ}
    (h : entry ∈ (removals.foldl (fun c key => (c.remove key).2) c).entries) :
    entry ∈ c.entries := by
  induction removals generalizing c with
  | nil => exact h
  | cons key rest ih => exact Cache.entries_remove_subset _ _ (ih h)

theorem mem_foldl_put {writes : Keyed κ α}
    (h : entry ∈ (writes.foldl (fun c (key, value) => c.put key value) c).entries) :
    entry ∈ c.entries ∨ entry ∈ writes := by
  induction writes generalizing c with
  | nil => exact .inl h
  | cons write rest ih =>
    obtain ⟨key, value⟩ := write
    rcases ih h with h | h
    · rcases Cache.mem_entries_put h with h | rfl
      exacts [.inl h, .inr List.mem_cons_self]
    · exact .inr (List.mem_cons_of_mem _ h)

/-- After the changes of an overlay, what a cache holds was there before, unless the overlay
clears it, or is written by the overlay. -/
theorem mem_applyTo (h : entry ∈ (o.applyTo c).entries) :
    entry ∈ c.entries ∧ o.clears = false ∨ entry ∈ o.writes := by
  rcases mem_foldl_put h with h | h
  · have hm := mem_foldl_remove h
    cases hc : o.clears with
    | true => simp [hc] at hm
    | false => exact .inl ⟨by simpa [hc] using hm, rfl⟩
  · exact .inr h

end Overlay

namespace Overlays

def Writes (os : Overlays κ α) (entry : κ × α) : Prop :=
  ∃ o ∈ os, entry ∈ o.2.writes

def Clears (os : Overlays κ α) (i : Nat) : Prop :=
  ∃ id o, Keyed.get? os id = some o ∧ o.target.index = i ∧ o.clears = true

/-- The overlays are kept under the ids of their caches, which are of some kind. -/
def Targets (U : CacheRef → Prop) (os : Overlays κ α) : Prop :=
  ∀ o ∈ os, o.1 = o.2.target.id ∧ U o.2.target

variable {os os' : Overlays κ α} {U : CacheRef → Prop} {P : κ × α → Prop} {r : CacheRef}
  {i : Nat} {entry : κ × α}

/-- Overlays that go on: what is written was written before, or is new; what is cleared stays
cleared. -/
structure Goes (U : CacheRef → Prop) (P : κ × α → Prop) (os os' : Overlays κ α) : Prop where
  writes : ∀ entry, os'.Writes entry → os.Writes entry ∨ P entry
  clears : ∀ i, os.Clears i → os'.Clears i
  targets : os.Targets U → os'.Targets U

omit [BEq κ] [LawfulBEq κ] in
theorem mem_overlay_writes (h : entry ∈ (os.overlay r).writes) : os.Writes entry := by
  unfold overlay at h
  cases ho : Keyed.get? os r.id with
  | none => simp [ho] at h
  | some o =>
    rw [ho] at h
    exact ⟨_, Keyed.mem_of_get? ho, h⟩

omit [BEq κ] [LawfulBEq κ] in
theorem targets_overlay (h : os.Targets U) (hr : U r) :
    (os.overlay r).target.id = r.id ∧ U (os.overlay r).target := by
  unfold overlay
  cases ho : Keyed.get? os r.id with
  | none => exact ⟨rfl, hr⟩
  | some o =>
    obtain ⟨hid, hu⟩ := h _ (Keyed.mem_of_get? ho)
    exact ⟨hid.symm, hu⟩

omit [BEq κ] [LawfulBEq κ] in
theorem Goes.set {o : Overlay κ α} (ht : o.target = (os.overlay r).target)
    (hc : (os.overlay r).clears = true → o.clears = true)
    (hw : ∀ entry ∈ o.writes, entry ∈ (os.overlay r).writes ∨ P entry) (hr : U r) :
    Goes U P os (Keyed.put os r.id o) where
  writes := by
    rintro entry ⟨held, hm, he⟩
    rcases Keyed.mem_put hm with hm | rfl
    · exact .inl ⟨held, hm, he⟩
    · exact (hw entry he).imp_left mem_overlay_writes
  clears := by
    rintro i ⟨id, old, hg, hi, hold⟩
    by_cases hid : id = r.id
    · subst hid
      have ho : os.overlay r = old := by simp [overlay, hg]
      exact ⟨r.id, o, Keyed.get?_put_self .., by rw [ht, ho, hi], hc (ho ▸ hold)⟩
    · exact ⟨id, old, (Keyed.get?_put_of_ne os o hid).trans hg, hi, hold⟩
  targets hts held hm := by
    rcases Keyed.mem_put hm with hm | rfl
    · exact hts held hm
    · rw [ht]
      exact ⟨(targets_overlay hts hr).1.symm, (targets_overlay hts hr).2⟩

omit [BEq κ] [LawfulBEq κ] in
theorem goes_clear (P : κ × α → Prop) (hr : U r) : Goes U P os (os.clear r) :=
  .set rfl (fun _ => rfl) (by simp [Overlay.clear]) hr

omit [LawfulBEq κ] in
theorem goes_get (P : κ × α → Prop) (hr : U r) (p : CachePool κ α) (key : κ) :
    Goes U P os (os.get p r key).2.1 := by
  obtain ⟨missed, hm⟩ := (os.overlay r).get_overlay p key
  have he : (os.get p r key).2.1 = Keyed.put os r.id { os.overlay r with missed } := by
    rw [← hm]
    rfl
  rw [he]
  exact .set (o := { os.overlay r with missed }) rfl id (fun _ => .inl) hr

theorem goes_put {key : κ} {value : α} (h : P (key, value)) (hr : U r) :
    Goes U P os (os.put r key value) := by
  refine .set (o := (os.overlay r).put key value) rfl id (fun entry he => ?_) hr
  rcases Keyed.mem_put he with he | rfl
  exacts [.inl he, .inr h]

theorem get_found {p : CachePool κ α} {key : κ} {value : α} (h : (os.get p r key).1 = some value) :
    os.Writes (key, value) ∨
      p.Has (os.overlay r).target.index (key, value) ∧ (os.overlay r).clears = false := by
  change ((os.overlay r).get p key).1 = some value at h
  unfold Overlay.get at h
  split at h
  · cases h
  · cases hw : Keyed.get? (os.overlay r).writes key with
    | some found =>
      rw [hw] at h
      cases h
      exact .inl (mem_overlay_writes (Keyed.mem_of_get? hw))
    | none =>
      rw [hw] at h
      change ((os.overlay r).visible p key).1 = some value at h
      unfold Overlay.visible at h
      split at h
      · cases h
      · rename_i hc
        exact .inr ⟨CachePool.has_of_get h, Bool.not_eq_true _ ▸ hc⟩

omit [LawfulBEq κ] in
theorem get_has {p : CachePool κ α} {key : κ} (h : (os.get p r key).2.2.Has i entry) :
    p.Has i entry := by
  change ((os.overlay r).get p key).2.2.Has i entry at h
  rcases (os.overlay r).get_pool p key with hp | hp
  · exact hp ▸ h
  · rw [hp] at h
    exact h.of_get

omit [BEq κ] [LawfulBEq κ] in
theorem not_writes_clear (h : os.Targets (· = r)) : ¬ (os.clear r).Writes entry := by
  rintro ⟨o, hm, he⟩
  unfold clear Keyed.put at hm
  split at hm
  · obtain ⟨⟨id, old⟩, ho, rfl⟩ := List.mem_map.mp hm
    obtain ⟨hid, ht⟩ := h _ ho
    have hid : id = r.id := hid.trans (congrArg CacheRef.id ht)
    simp [hid, Overlay.clear] at he
  · rename_i hc
    rcases List.mem_append.mp hm with hm | hm
    · obtain ⟨hid, ht⟩ := h _ hm
      refine hc (List.any_eq_true.mpr ⟨o, hm, ?_⟩)
      simp [hid, ht]
    · rw [List.mem_singleton.mp hm] at he
      simp [Overlay.clear] at he

omit [BEq κ] [LawfulBEq κ] in
theorem clears_clear (h : os.Targets (· = r)) : (os.clear r).Clears r.index :=
  ⟨r.id, _, Keyed.get?_put_self .., congrArg CacheRef.index (targets_overlay h rfl).2, rfl⟩

omit [BEq κ] [LawfulBEq κ] in
theorem Clears.overlay (hc : os.Clears r.index) (h : os.Targets (· = r)) :
    (os.overlay r).clears = true := by
  obtain ⟨id, o, ho, -, hclears⟩ := hc
  obtain ⟨hid, ht⟩ := h _ (Keyed.mem_of_get? ho)
  obtain rfl : id = r.id := hid.trans (congrArg CacheRef.id ht)
  rw [Overlays.overlay, ho]
  exact hclears

omit [BEq κ] [LawfulBEq κ] in
theorem not_writes_rollback : ¬ os.rollback.Writes entry := by
  rintro ⟨o, hm, he⟩
  obtain ⟨⟨id, old⟩, -, rfl⟩ := List.mem_map.mp hm
  simp [Overlay.reset] at he

omit [BEq κ] [LawfulBEq κ] in
theorem targets_rollback (h : os.Targets U) : os.rollback.Targets U := by
  intro o hm
  obtain ⟨⟨id, old⟩, ho, rfl⟩ := List.mem_map.mp hm
  exact h (id, old) ho

theorem has_commit {p : CachePool κ α} (h : (os.commit p).2.Has i entry) :
    p.Has i entry ∧ ¬ os.Clears i ∨ os.Writes entry := by
  have hkeeps : p.Has i entry ∧ (∀ o ∈ os, o.2.target.index = i → o.2.clears = false) ∨
      os.Writes entry := by
    unfold commit at h
    dsimp only at h
    induction os generalizing p with
    | nil => exact .inl ⟨h, by simp⟩
    | cons first rest ih =>
      obtain ⟨id, o⟩ := first
      rcases ih h with ⟨hp, hrest⟩ | ⟨other, hm, he⟩
      · rcases hp.of_modify with ⟨hp, hi⟩ | ⟨rfl, c, hc, he⟩
        · exact .inl ⟨hp, List.forall_mem_cons.mpr ⟨fun ht => absurd ht.symm hi, hrest⟩⟩
        · rcases Overlay.mem_applyTo he with ⟨he, hclears⟩ | he
          · exact .inl ⟨⟨c, hc, he⟩, List.forall_mem_cons.mpr ⟨fun _ => hclears, hrest⟩⟩
          · exact .inr ⟨_, List.mem_cons_self, he⟩
      · exact .inr ⟨other, List.mem_cons_of_mem _ hm, he⟩
  refine hkeeps.imp_left fun ⟨hp, hc⟩ => ⟨hp, ?_⟩
  rintro ⟨id, o, ho, hi, hclears⟩
  exact absurd (hclears.symm.trans (hc _ (Keyed.mem_of_get? ho) hi)) Bool.false_ne_true.symm

end Overlays

end MappedSql
