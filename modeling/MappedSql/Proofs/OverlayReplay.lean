import MappedSql.Proofs.OverlayView

/-!
# The overlays of a transaction

A transaction has one overlay for each cache that it uses. Together they follow the changes that
were made since the last commit or rollback: they show, of each cache, what the replay of its
changes gives, and a commit makes the caches hold just that.
-/

namespace MappedSql

variable {κ α : Type} [BEq κ]

-- ---------------------------------------------------------------------------
-- Caches in a pool
-- ---------------------------------------------------------------------------

namespace CachePool

def ids (p : CachePool κ α) : List String := p.caches.map Cache.id

def content (p : CachePool κ α) (r : CacheRef) : κ → Option α := fun key =>
  (p.cache? r).bind fun c => c.lookup key

/-- The caches have distinct ids, and room for the keys that are used of each. -/
structure Shared (keys : Nat → List κ) (p : CachePool κ α) : Prop where
  distinct : p.ids.Nodup
  roomy : ∀ (i : Nat) (c : Cache κ α), p.caches[i]? = some c → c.Roomy (keys i)

end CachePool

/-- A reference to the cache of its id. -/
def CacheRef.In (ids : List String) (r : CacheRef) : Prop := ids[r.index]? = some r.id

omit [BEq κ] in
theorem CachePool.in_ids {p : CachePool κ α} {r : CacheRef} :
    r.In p.ids ↔ ∃ c, p.cache? r = some c ∧ c.id = r.id := by
  simp [CacheRef.In, ids, cache?]

theorem CacheRef.In.eq_of_index {ids : List String} {r q : CacheRef} (hr : r.In ids)
    (hq : q.In ids) (h : r.index = q.index) : r = q := by
  obtain ⟨id, index⟩ := r
  obtain ⟨id', index'⟩ := q
  cases h
  cases Option.some.inj (hr.symm.trans hq)
  rfl

theorem CacheRef.In.eq_of_id {ids : List String} (hd : ids.Nodup) {r q : CacheRef}
    (hr : r.In ids) (hq : q.In ids) (h : r.id = q.id) : r = q := by
  refine hr.eq_of_index hq ?_
  obtain ⟨hlr, hr⟩ := List.getElem?_eq_some_iff.mp hr
  obtain ⟨hlq, hq⟩ := List.getElem?_eq_some_iff.mp hq
  exact (hd.getElem_inj_iff).mp (hr.trans (h.trans hq.symm))

namespace CachePool

variable {p : CachePool κ α} {r q : CacheRef} {g : Cache κ α → Cache κ α}

omit [BEq κ] in
theorem cache?_modify : (p.modify r g).cache? q =
    if r.index = q.index then (p.cache? q).map g else p.cache? q := by
  simp only [modify, cache?, List.getElem?_modify]
  split <;> simp

omit [BEq κ] in
theorem ids_modify (hg : ∀ c, (g c).id = c.id) : (p.modify r g).ids = p.ids := by
  refine List.ext_getElem? fun i => ?_
  simp only [ids, modify, List.getElem?_map, List.getElem?_modify]
  split <;> simp [Function.comp_def, hg]

omit [BEq κ] in
theorem Shared.modify {keys : Nat → List κ} (h : p.Shared keys) (hid : ∀ c, (g c).id = c.id)
    (hg : ∀ c, p.cache? r = some c → (g c).Roomy (keys r.index)) :
    (p.modify r g).Shared keys := by
  constructor
  · rw [ids_modify hid]
    exact h.distinct
  · intro i c hc
    have hq : (p.modify r g).cache? ⟨"", i⟩ = some c := hc
    rw [cache?_modify] at hq
    split at hq
    · rename_i hi
      obtain ⟨old, ho, rfl⟩ := Option.map_eq_some_iff.mp hq
      cases hi
      exact hg old ho
    · exact h.roomy i c hq

end CachePool

-- ---------------------------------------------------------------------------
-- The overlays of one transaction
-- ---------------------------------------------------------------------------

def Overlay.change (o : Overlay κ α) : Change κ α → Overlay κ α
  | .put key value => o.put key value
  | .remove key => o.remove key
  | .clear => o.clear

namespace Overlays

def change (os : Overlays κ α) (r : CacheRef) : Change κ α → Overlays κ α
  | .put key value => os.put r key value
  | .remove key => os.remove r key
  | .clear => os.clear r

omit [BEq κ] in
theorem overlay_put (os : Overlays κ α) (r q : CacheRef) (o : Overlay κ α) :
    overlay (Keyed.put os r.id o) q = if q.id = r.id then o else os.overlay q := by
  unfold overlay
  split
  · rename_i h
    rw [h, Keyed.get?_put_self]
    rfl
  · rename_i h
    rw [Keyed.get?_put_of_ne os o h]

theorem change_eq (os : Overlays κ α) (r : CacheRef) (c : Change κ α) :
    os.change r c = Keyed.put os r.id ((os.overlay r).change c) := by
  cases c <;> rfl

/-- Overlays that show, of each cache, what the replay of changes of it gives. -/
structure Follow (ids : List String) (keys : Nat → List κ)
    (changes : CacheRef → List (Change κ α)) (os : Overlays κ α) : Prop where
  distinct : (os.map (·.1)).Nodup
  named : ∀ entry ∈ os, entry.2.target.id = entry.1 ∧ entry.2.target.In ids
  tidy : ∀ r, r.In ids → (os.overlay r).Tidy
  within : ∀ r, r.In ids → (os.overlay r).Within (keys r.index)
  view : ∀ r, r.In ids → ∀ f, (os.overlay r).view f = replayed (changes r) f

variable {ids : List String} {keys : Nat → List κ} {changes : CacheRef → List (Change κ α)}
  {os : Overlays κ α}

theorem follow_nil : Follow ids keys (fun _ => ([] : List (Change κ α))) [] where
  distinct := List.nodup_nil
  named := by simp
  tidy r _ := Overlay.reset_tidy { target := r }
  within r _ := Overlay.reset_within { target := r }
  view r _ f := Overlay.view_reset { target := r }

omit [BEq κ] in
theorem overlay_target (hn : ∀ entry ∈ os, entry.2.target.id = entry.1 ∧ entry.2.target.In ids)
    (hd : ids.Nodup) {r : CacheRef} (hr : r.In ids) : (os.overlay r).target = r := by
  unfold overlay
  cases ho : Keyed.get? os r.id with
  | none => rfl
  | some o =>
    obtain ⟨hid, hin⟩ := hn _ (Keyed.mem_of_get? ho)
    exact hin.eq_of_id hd hr hid

theorem Follow.set (h : Follow ids keys changes os) (hd : ids.Nodup) {r : CacheRef}
    (hr : r.In ids) {o : Overlay κ α} (hot : o.target = r) (ht : o.Tidy)
    (hw : o.Within (keys r.index)) {changes' : CacheRef → List (Change κ α)}
    (hv : ∀ f, o.view f = replayed (changes' r) f) (hc : ∀ q, q ≠ r → changes' q = changes q) :
    Follow ids keys changes' (Keyed.put os r.id o) where
  distinct := Keyed.nodup_put h.distinct
  named entry he := by
    rcases Keyed.mem_put he with hm | rfl
    · exact h.named entry hm
    · exact ⟨congrArg CacheRef.id hot, hot.symm ▸ hr⟩
  tidy q hq := by
    rw [overlay_put]
    split
    exacts [ht, h.tidy q hq]
  within q hq := by
    rw [overlay_put]
    split
    · rename_i he
      exact hq.eq_of_id hd hr he ▸ hw
    · exact h.within q hq
  view q hq f := by
    rw [overlay_put]
    split
    · rename_i he
      exact hq.eq_of_id hd hr he ▸ hv f
    · rename_i hne
      rw [hc q fun he => hne (congrArg CacheRef.id he)]
      exact h.view q hq f

omit [BEq κ] in
theorem overlay_rollback (os : Overlays κ α) (r : CacheRef) :
    os.rollback.overlay r = (os.overlay r).reset := by
  have hg : Keyed.get? os.rollback r.id = (Keyed.get? os r.id).map Overlay.reset := by
    simp only [Keyed.get?, rollback, List.find?_map, Option.map_map]
    rfl
  unfold overlay
  rw [hg]
  cases Keyed.get? os r.id <;> rfl

theorem Follow.rollback (h : Follow ids keys changes os) :
    Follow ids keys (fun _ => []) os.rollback where
  distinct := by simpa [Overlays.rollback, Function.comp_def] using h.distinct
  named entry he := by
    obtain ⟨old, hm, rfl⟩ := List.mem_map.mp he
    exact h.named old hm
  tidy r _ := overlay_rollback os r ▸ Overlay.reset_tidy _
  within r _ := overlay_rollback os r ▸ Overlay.reset_within _
  view r _ f := overlay_rollback os r ▸ Overlay.view_reset _

omit [BEq κ] in
theorem overlay_cons (id : String) (o : Overlay κ α) (os : Overlays κ α) (r : CacheRef) :
    overlay ((id, o) :: os) r = if id = r.id then o else os.overlay r := by
  simp only [overlay, Keyed.get?_cons, beq_iff_eq]
  split <;> rfl

theorem commit_cache? (hd : ids.Nodup) {os : Overlays κ α} (hdo : (os.map (·.1)).Nodup)
    (hn : ∀ entry ∈ os, entry.2.target.id = entry.1 ∧ entry.2.target.In ids) {r : CacheRef}
    (hr : r.In ids) (p : CachePool κ α) :
    (os.commit p).2.cache? r = (p.cache? r).map (os.overlay r).applyTo := by
  unfold commit
  dsimp only
  induction os generalizing p with
  | nil => exact Option.map_id'.symm
  | cons entry os ih =>
    obtain ⟨id, o⟩ := entry
    rw [List.map_cons, List.nodup_cons] at hdo
    rw [List.forall_mem_cons] at hn
    obtain ⟨⟨hid, hin⟩, hn⟩ := hn
    rw [List.foldl_cons, ih hdo.2 hn, overlay_cons, Overlay.commit, CachePool.cache?_modify]
    by_cases he : id = r.id
    · have ho : (Overlays.overlay os r : Overlay κ α) = { target := r } := by
        rw [overlay, Keyed.get?_eq_none_iff.mpr (he ▸ hdo.1)]
        rfl
      have ht : o.target = r := hin.eq_of_id hd hr (hid.trans he)
      rw [if_pos he, ho, ht, if_pos rfl]
      exact Option.map_id'
    · have ht : o.target.index ≠ r.index := fun h =>
        he (hid.symm.trans (congrArg CacheRef.id (hin.eq_of_index hr h)))
      rw [if_neg he, if_neg ht]

def Alike (os others : Overlays κ α) : Prop :=
  List.Forall₂ (fun entry other => other.1 = entry.1 ∧ entry.2.Reordered other.2) os others

/-- Overlays with the same changes, which may be kept in another order. -/
def Reordered (os others : Overlays κ α) : Prop :=
  ∃ mid, os.Alike mid ∧ others.Perm mid

variable {others : Overlays κ α}

omit [BEq κ] in
theorem Reordered.refl (os : Overlays κ α) : os.Reordered os :=
  ⟨os, List.forall₂_same.mpr fun _ _ => ⟨rfl, rfl, rfl, .refl _, .refl _⟩, .refl _⟩

omit [BEq κ] in
theorem Alike.names (h : os.Alike others) : others.map (·.1) = os.map (·.1) := by
  induction h with
  | nil => rfl
  | cons he _ ih => rw [List.map_cons, List.map_cons, he.1, ih]

omit [BEq κ] in
theorem Alike.overlay (h : os.Alike others) (r : CacheRef) :
    (os.overlay r).Reordered (others.overlay r) := by
  induction h with
  | nil => exact ⟨rfl, rfl, .refl _, .refl _⟩
  | @cons entry other _ _ he _ ih =>
    obtain ⟨id, o⟩ := entry
    obtain ⟨id', o'⟩ := other
    obtain ⟨rfl, he⟩ := he
    rw [overlay_cons, overlay_cons]
    split
    exacts [he, ih]

omit [BEq κ] in
theorem Alike.mem (h : os.Alike others) {other : String × Overlay κ α} (hm : other ∈ others) :
    ∃ entry ∈ os, other.1 = entry.1 ∧ entry.2.Reordered other.2 := by
  induction h with
  | nil => cases hm
  | cons he _ ih =>
    rcases List.mem_cons.mp hm with rfl | hm
    · exact ⟨_, List.mem_cons_self, he⟩
    · obtain ⟨entry, hentry, hr⟩ := ih hm
      exact ⟨entry, List.mem_cons_of_mem _ hentry, hr⟩

variable [LawfulBEq κ]

theorem Follow.reordered (h : Follow ids keys changes os) (hr : os.Reordered others) :
    Follow ids keys changes others := by
  obtain ⟨mid, ha, hp⟩ := hr
  have hd : (List.map (·.1) mid).Nodup := ha.names ▸ h.distinct
  have ho (r : CacheRef) : (os.overlay r).Reordered (others.overlay r) := by
    rw [overlay, overlay, Keyed.get?_perm hd hp]
    exact ha.overlay r
  exact
    { distinct := (hp.map _).nodup_iff.mpr hd
      named := fun other ho => by
        obtain ⟨entry, he, hid, hr⟩ := ha.mem (hp.mem_iff.mp ho)
        rw [hid, hr.target]
        exact h.named entry he
      tidy := fun r hr => (ho r).tidy (h.tidy r hr)
      within := fun r hr => (ho r).within (h.within r hr)
      view := fun r hr f => ((ho r).view (h.tidy r hr)).trans (h.view r hr f) }

end Overlays

-- ---------------------------------------------------------------------------
-- Lookups through overlays
-- ---------------------------------------------------------------------------

namespace CachePool

variable {p : CachePool κ α} {keys : Nat → List κ}

@[simp] theorem ids_get (p : CachePool κ α) (r : CacheRef) (key : κ) :
    (p.get r key).2.ids = p.ids :=
  ids_modify fun c => Cache.id_get c key

variable [LawfulBEq κ]

theorem Shared.get (h : p.Shared keys) (r : CacheRef) (key : κ) :
    (p.get r key).2.Shared keys ∧ (p.get r key).2.content = p.content := by
  constructor
  · refine h.modify (fun c => Cache.id_get c key) fun c hc => ?_
    exact ((h.roomy r.index c hc).get key).2.2
  · funext q other
    simp only [content, CachePool.get, cache?_modify]
    split
    · rename_i hi
      cases hc : p.cache? q with
      | none => rfl
      | some c =>
        have he := ((h.roomy q.index c hc).get key).2.1
        simp only [Option.map_some, Option.bind_some, Cache.lookup, he]
    · rfl

end CachePool

namespace Overlay

/-- A lookup notes the key where it is missing, and changes nothing else of the overlay. -/
theorem get_overlay (o : Overlay κ α) (p : CachePool κ α) (key : κ) :
    ∃ missed, (o.get p key).2.1 = { o with missed } := by
  unfold get
  split
  · exact ⟨o.missed, rfl⟩
  · split
    · exact ⟨o.missed, rfl⟩
    · dsimp only
      split
      exacts [⟨_, rfl⟩, ⟨o.missed, rfl⟩]

theorem get_pool (o : Overlay κ α) (p : CachePool κ α) (key : κ) :
    (o.get p key).2.2 = p ∨ (o.get p key).2.2 = (p.get o.target key).2 := by
  unfold get
  split
  · exact .inl rfl
  · split
    · exact .inl rfl
    · simp only [visible]
      cases o.clears
      exacts [.inr rfl, .inl rfl]

end Overlay

theorem CachePool.Shared.overlays_get [LawfulBEq κ] {keys : Nat → List κ} {p : CachePool κ α}
    (h : p.Shared keys) (os : Overlays κ α) (r : CacheRef) (key : κ) :
    (os.get p r key).2.2.ids = p.ids ∧ (os.get p r key).2.2.Shared keys ∧
      (os.get p r key).2.2.content = p.content := by
  change (((os.overlay r).get p key).2.2).ids = _ ∧ (((os.overlay r).get p key).2.2).Shared _ ∧
    (((os.overlay r).get p key).2.2).content = _
  rcases (os.overlay r).get_pool p key with hp | hp <;> rw [hp]
  · exact ⟨rfl, h, rfl⟩
  · exact ⟨p.ids_get _ key, h.get _ key⟩

namespace Overlay

theorem get_fst [LawfulBEq κ] {keys : List κ} {o : Overlay κ α} {p : CachePool κ α}
    {c : Cache κ α} (hc : p.cache? o.target = some c) (hr : c.Roomy keys) (key : κ) :
    (o.get p key).1 = o.view c.lookup key := by
  have hv : (o.visible p key).1 = bif o.clears then none else c.lookup key := by
    unfold visible
    cases o.clears with
    | true => rfl
    | false => simp [CachePool.get, hc, (hr.get key).1, Cache.lookup]
  unfold get view
  split
  · rfl
  · cases Keyed.get? o.writes key with
    | some value => rfl
    | none => exact hv

end Overlay

namespace Overlays

variable [LawfulBEq κ] {ids : List String} {keys : Nat → List κ}
  {changes : CacheRef → List (Change κ α)} {os : Overlays κ α}

/-- A lookup finds what the replay of the changes on the cache would hold. -/
theorem Follow.get_fst (h : Follow ids keys changes os) (hd : ids.Nodup) {p : CachePool κ α}
    (hp : p.Shared keys) {r : CacheRef} (hr : r.In ids) {c : Cache κ α}
    (hc : p.cache? r = some c) (hw : ∀ change ∈ changes r, change.Within (keys r.index))
    (key : κ) : (os.get p r key).1 = ((replay (changes r) c).get key).1 := by
  have hcr := hp.roomy r.index c hc
  obtain ⟨hl, hrr⟩ := lookup_replay hcr hw
  have ht : (os.overlay r).target = r := overlay_target h.named hd hr
  calc (os.get p r key).1
      = (os.overlay r).view c.lookup key := Overlay.get_fst (ht.symm ▸ hc) hcr key
    _ = replayed (changes r) c.lookup key := by rw [h.view r hr]
    _ = (replay (changes r) c).lookup key := by rw [hl]
    _ = ((replay (changes r) c).get key).1 := (hrr.get key).1.symm

omit [LawfulBEq κ] in
theorem Follow.get (h : Follow ids keys changes os) (hd : ids.Nodup) (p : CachePool κ α)
    {r : CacheRef} (hr : r.In ids) (key : κ) : Follow ids keys changes (os.get p r key).2.1 := by
  obtain ⟨missed, hm⟩ := (os.overlay r).get_overlay p key
  have he : (os.get p r key).2.1 = Keyed.put os r.id { os.overlay r with missed } := by
    rw [← hm]
    rfl
  have ht := h.tidy r hr
  have hw := h.within r hr
  rw [he]
  exact h.set (o := { os.overlay r with missed }) hd hr (overlay_target h.named hd hr)
    ⟨ht.disjoint, ht.distinct⟩ ⟨hw.writes, hw.removals⟩ (h.view r hr) fun _ _ => rfl

theorem Follow.change (h : Follow ids keys changes os) (hd : ids.Nodup) {r : CacheRef}
    (hr : r.In ids) {c : Change κ α} (hc : c.Within (keys r.index))
    {changes' : CacheRef → List (Change κ α)} (hs : changes' r = changes r ++ [c])
    (ho : ∀ q, q ≠ r → changes' q = changes q) : Follow ids keys changes' (os.change r c) := by
  have htarget : (os.overlay r).target = r := overlay_target h.named hd hr
  have ht := h.tidy r hr
  have hw := h.within r hr
  have hv (f : κ → Option α) : replayed (changes' r) f = c.after ((os.overlay r).view f) := by
    rw [hs, replayed, List.foldl_append, ← replayed, h.view r hr]
    rfl
  rw [change_eq]
  cases c with
  | put key value =>
    exact h.set (o := (os.overlay r).put key value) hd hr htarget (ht.put key value)
      (hw.put hc value) (fun f => (Overlay.view_put _ key value).trans (hv f).symm) ho
  | remove key =>
    exact h.set (o := (os.overlay r).remove key) hd hr htarget (ht.remove key) (hw.remove hc)
      (fun f => (Overlay.view_remove _ key).trans (hv f).symm) ho
  | clear =>
    exact h.set (o := (os.overlay r).clear) hd hr htarget (Overlay.clear_tidy _)
      (Overlay.clear_within _) (fun f => Overlay.view_clear.trans (hv f).symm) ho

omit [LawfulBEq κ] in
theorem ids_commit (os : Overlays κ α) (p : CachePool κ α) : (os.commit p).2.ids = p.ids := by
  unfold commit
  dsimp only
  induction os generalizing p with
  | nil => rfl
  | cons entry os ih => exact (ih _).trans (CachePool.ids_modify entry.2.id_applyTo)

/-- A commit makes each cache hold what the replay of the changes on it would hold. -/
theorem Follow.commit (h : Follow ids keys changes os) {p : CachePool κ α} (hids : p.ids = ids)
    (hp : p.Shared keys) :
    (os.commit p).2.Shared keys ∧
      ∀ r, r.In ids → (os.commit p).2.content r = replayed (changes r) (p.content r) := by
  have hd : ids.Nodup := hids ▸ hp.distinct
  have happly (r : CacheRef) (hr : r.In ids) (c : Cache κ α) (hc : p.cache? r = some c) :=
    Overlay.lookup_applyTo (hp.roomy r.index c hc) (h.tidy r hr) (h.within r hr)
  have hcache (r : CacheRef) (hr : r.In ids) :=
    commit_cache? hd h.distinct h.named hr p
  refine ⟨⟨ids_commit os p ▸ hp.distinct, fun i c' hc' => ?_⟩, fun r hr => ?_⟩
  · -- the cache at a place is the one of the reference with its id
    have hr : CacheRef.In ids ⟨c'.id, i⟩ :=
      hids ▸ ids_commit os p ▸ CachePool.in_ids.mpr ⟨c', hc', rfl⟩
    obtain ⟨c, hc, he⟩ := Option.map_eq_some_iff.mp ((hcache _ hr).symm.trans hc')
    exact he ▸ (happly _ hr c hc).2
  · obtain ⟨c, hc, -⟩ := CachePool.in_ids.mp (hids.symm ▸ hr)
    funext key
    have hrc : p.content r = c.lookup := by
      funext key
      rw [CachePool.content, hc, Option.bind_some]
    rw [CachePool.content, hcache r hr, hc, Option.map_some, Option.bind_some,
      (happly r hr c hc).1, h.view r hr, hrc]

end Overlays

end MappedSql
