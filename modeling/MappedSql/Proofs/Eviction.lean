import MappedSql.Proofs.BoundedStores

/-!
# Eviction

A cache that is built keeps the keys of its entries in one layer and the entries themselves
in another. Where no layer clears it by time, it answers every call as a bounded store does
that keeps both in one list, and the two layers always hold the same keys.
-/

namespace MappedSql

variable {κ α : Type}

-- ---------------------------------------------------------------------------
-- Caches that match a bounded store
-- ---------------------------------------------------------------------------

namespace Cache

variable [BEq κ] [LawfulBEq κ] {capacity : Nat} {eldest : κ} {rest : List κ}
  {inner : Cache κ α} {key : κ}

omit [LawfulBEq κ] in
@[simp] theorem put_store (id : String) (entries : Keyed κ α) (key : κ) (value : α) :
    (store id entries).put key value = .store id (Keyed.put entries key value) := by
  rw [put]

theorem put_leastRecent_of_full (hm : key ∉ eldest :: rest)
    (hc : ¬ (eldest :: rest).length < capacity) (value : α) :
    (leastRecent capacity (eldest :: rest) inner).put key value =
      .leastRecent capacity (rest ++ [key]) ((inner.put key value).remove eldest).2 := by
  rw [put, if_neg (mt List.contains_iff_mem.mp hm), if_neg hc]

theorem put_firstIn_of_full (hm : key ∉ eldest :: rest)
    (hc : ¬ (eldest :: rest).length < capacity) (value : α) :
    (firstIn capacity (eldest :: rest) inner).put key value =
      .firstIn capacity (rest ++ [key]) ((inner.remove eldest).2.put key value) := by
  rw [put, if_neg (mt List.contains_iff_mem.mp hm), if_neg hc]

end Cache

def Cache.held : Cache κ α → List κ
  | .store _ _ => []
  | .leastRecent _ keys _ | .firstIn _ keys _ => keys
  | .scheduled _ inner _ | .copying inner | .counting _ _ inner => inner.held

/-- The cache keeps the keys of a bounded store in the same order, and its entries in any. -/
inductive Matches {policy : EvictionPolicy} {capacity : Nat}
    (s : BoundedStore κ α policy capacity) : Cache κ α → Prop
  | leastRecent {held : List κ} {id : String} {entries : Keyed κ α} (hp : policy = .lru)
      (hk : s.keys = held) (he : entries.Perm s.entries) :
      Matches s (.leastRecent capacity held (.store id entries))
  | firstIn {held : List κ} {id : String} {entries : Keyed κ α} (hp : policy = .fifo)
      (hk : s.keys = held) (he : entries.Perm s.entries) :
      Matches s (.firstIn capacity held (.store id entries))
  | copying {inner : Cache κ α} (h : Matches s inner) : Matches s (.copying inner)
  | counting {requests hits : Nat} {inner : Cache κ α} (h : Matches s inner) :
      Matches s (.counting requests hits inner)

namespace Matches

variable [BEq κ] [LawfulBEq κ] {policy : EvictionPolicy} {capacity : Nat}
  {s : BoundedStore κ α policy capacity} {c : Cache κ α}

omit [BEq κ] [LawfulBEq κ] in
theorem clear (h : Matches s c) : Matches s.clear c.clear := by
  induction h with
  | leastRecent hp hk he => exact .leastRecent hp rfl (.refl _)
  | firstIn hp hk he => exact .firstIn hp rfl (.refl _)
  | copying _ ih => exact .copying ih
  | counting _ ih => exact .counting ih

theorem get (h : Matches s c) (key : κ) :
    (c.get key).1 = (s.get key).1 ∧ Matches (s.get key).2 (c.get key).2 := by
  induction h with
  | leastRecent hp hk he =>
    obtain ⟨hk', he'⟩ := s.get_lru hp key
    refine ⟨?_, .leastRecent hp (hk ▸ hk') (he.trans he')⟩
    rw [s.get_fst, ← Keyed.get?_perm s.entries_nodup he]
    rfl
  | firstIn hp hk he =>
    obtain ⟨hk', he'⟩ := s.get_fifo hp key
    refine ⟨?_, .firstIn hp (hk'.trans hk) (he' ▸ he)⟩
    rw [s.get_fst, ← Keyed.get?_perm s.entries_nodup he]
    rfl
  | copying _ ih => exact ⟨ih.1, .copying ih.2⟩
  | counting _ ih => exact ⟨ih.1, .counting ih.2⟩

theorem remove (h : Matches s c) (key : κ) :
    (c.remove key).1 = (s.remove key).1 ∧ Matches (s.remove key).2 (c.remove key).2 := by
  obtain ⟨hv, hks, hes⟩ := s.remove_spec key
  induction h with
  | leastRecent hp hk he =>
    refine ⟨(congrFun (Keyed.get?_perm s.entries_nodup he) key).trans hv.symm, ?_⟩
    exact .leastRecent hp (hk ▸ hks) (hes ▸ Keyed.erase_perm he key)
  | firstIn hp hk he =>
    refine ⟨(congrFun (Keyed.get?_perm s.entries_nodup he) key).trans hv.symm, ?_⟩
    have hf : s.keys.erase key = s.keys.filter (!· == key) :=
      List.Nodup.erase_eq_filter s.orderly.distinct key
    exact .firstIn hp (hk ▸ hks.trans hf) (hes ▸ Keyed.erase_perm he key)
  | copying _ ih => exact ⟨ih.1, .copying ih.2⟩
  | counting _ ih => exact ⟨ih.1, .counting ih.2⟩

section
variable {id : String} {entries : Keyed κ α} {key : κ}

omit [BEq κ] [LawfulBEq κ] in
theorem not_mem_entries (he : entries.Perm s.entries) (hm : key ∉ s.keys) :
    key ∉ entries.map (·.1) := by
  rwa [(he.map _).mem_iff, s.map_entries]

theorem put_leastRecent (hp : policy = .lru) (he : entries.Perm s.entries) (key : κ) (value : α) :
    Matches (s.put key value)
      ((Cache.leastRecent capacity s.keys (.store id entries)).put key value) := by
  unfold BoundedStore.put
  by_cases hm : key ∈ s.keys
  · rw [dif_pos hm, if_pos hp, Cache.put_leastRecent_of_mem hm, Cache.put_store]
    exact .leastRecent hp (s.keys_renew hm)
      ((Keyed.put_perm he key value).trans (s.entries_renew hm))
  rw [dif_neg hm]
  have happend := Keyed.put_of_not_mem (not_mem_entries he hm) value
  by_cases hroom : s.keys.length < capacity
  · obtain ⟨hk', he'⟩ := s.enter_room value hm hroom
    rw [Cache.put_leastRecent_of_room hm hroom, Cache.put_store, happend]
    exact .leastRecent hp hk' (he' ▸ he.append_right _)
  · obtain ⟨eldest, rest, hks⟩ := s.exists_eldest hroom
    obtain ⟨hk', he'⟩ := s.enter_full value hm hroom hks
    rw [hks] at hm hroom ⊢
    rw [Cache.put_leastRecent_of_full hm hroom, Cache.put_store, happend]
    have hne : key ≠ eldest := fun h => hm (h ▸ List.mem_cons_self)
    have herase : Keyed.erase (entries ++ [(key, value)]) eldest =
        Keyed.erase entries eldest ++ [(key, value)] := by
      simp [Keyed.erase, hne]
    refine .leastRecent hp hk' ?_
    rw [herase, he']
    exact (Keyed.erase_perm he eldest).append_right _

theorem put_firstIn (hp : policy = .fifo) (he : entries.Perm s.entries) (key : κ) (value : α) :
    Matches (s.put key value)
      ((Cache.firstIn capacity s.keys (.store id entries)).put key value) := by
  unfold BoundedStore.put
  by_cases hm : key ∈ s.keys
  · rw [dif_pos hm, if_neg (by simp [hp]), Cache.put_firstIn_of_mem hm, Cache.put_store]
    exact .firstIn hp s.keys_replace (s.entries_replace hm ▸ Keyed.put_perm he key value)
  rw [dif_neg hm]
  by_cases hroom : s.keys.length < capacity
  · obtain ⟨hk', he'⟩ := s.enter_room value hm hroom
    rw [Cache.put_firstIn_of_room hm hroom, Cache.put_store,
      Keyed.put_of_not_mem (not_mem_entries he hm)]
    exact .firstIn hp hk' (he' ▸ he.append_right _)
  · obtain ⟨eldest, rest, hks⟩ := s.exists_eldest hroom
    obtain ⟨hk', he'⟩ := s.enter_full value hm hroom hks
    have hrest : key ∉ (Keyed.erase entries eldest).map (·.1) := fun h =>
      not_mem_entries he hm ((List.filter_sublist.map _).subset h)
    rw [hks] at hm hroom ⊢
    rw [Cache.put_firstIn_of_full hm hroom]
    change Matches _ (.firstIn _ _ (Cache.put (.store id (Keyed.erase entries eldest)) key value))
    rw [Cache.put_store, Keyed.put_of_not_mem hrest]
    exact .firstIn hp hk' (he' ▸ (Keyed.erase_perm he eldest).append_right _)

end

theorem put (h : Matches s c) (key : κ) (value : α) :
    Matches (s.put key value) (c.put key value) := by
  induction h with
  | leastRecent hp hk he => exact hk ▸ put_leastRecent hp he key value
  | firstIn hp hk he => exact hk ▸ put_firstIn hp he key value
  | copying _ ih =>
    rw [Cache.put]
    exact .copying ih
  | counting _ ih =>
    rw [Cache.put]
    exact .counting ih

end Matches

-- ---------------------------------------------------------------------------
-- A run of calls
-- ---------------------------------------------------------------------------

namespace CacheCall

def onCache [BEq κ] : CacheCall κ α → Cache κ α → Option α × Cache κ α
  | .put key value, c => (none, c.put key value)
  | .get key, c => c.get key
  | .remove key, c => c.remove key
  | .clear, c => (none, c.clear)

end CacheCall

section
variable [BEq κ] [LawfulBEq κ] {policy : EvictionPolicy} {capacity : Nat}

theorem Matches.step {s : BoundedStore κ α policy capacity} {c : Cache κ α} (h : Matches s c)
    (call : CacheCall κ α) :
    (call.onCache c).1 = (call.onStore s).1 ∧ Matches (call.onStore s).2 (call.onCache c).2 := by
  cases call with
  | put key value => exact ⟨rfl, h.put key value⟩
  | get key => exact h.get key
  | remove key => exact h.remove key
  | clear => exact ⟨rfl, h.clear⟩

theorem Matches.run {s : BoundedStore κ α policy capacity} {c : Cache κ α} (h : Matches s c)
    (calls : List (CacheCall κ α)) :
    (answering CacheCall.onCache calls c).1 = (answering CacheCall.onStore calls s).1 ∧
      Matches (answering CacheCall.onStore calls s).2 (answering CacheCall.onCache calls c).2 := by
  induction calls generalizing s c with
  | nil => exact ⟨rfl, h⟩
  | cons call calls ih =>
    obtain ⟨hfirst, hm⟩ := h.step call
    obtain ⟨hrest, hm⟩ := ih hm
    exact ⟨congrArg₂ List.cons hfirst hrest, hm⟩

omit [BEq κ] [LawfulBEq κ] in
theorem Matches.held {s : BoundedStore κ α policy capacity} {c : Cache κ α} (h : Matches s c) :
    c.held = s.keys ∧ c.entries.Perm s.entries := by
  induction h with
  | leastRecent _ hk he => exact ⟨hk.symm, he⟩
  | firstIn _ hk he => exact ⟨hk.symm, he⟩
  | copying _ ih => exact ih
  | counting _ ih => exact ih

omit [BEq κ] [LawfulBEq κ] in
theorem matches_build {o : CacheOptions} (id : String) (h : 0 < o.size)
    (hflush : o.flushInterval = none) :
    ∃ built : Cache κ α, o.build id = .ok built ∧
      Matches (.empty h : BoundedStore κ α o.eviction o.size) built := by
  refine ⟨_, if_neg (Nat.ne_of_gt h), ?_⟩
  have hb : Matches (.empty h : BoundedStore κ α o.eviction o.size) (o.bounded (.store id [])) := by
    unfold CacheOptions.bounded
    split
    · rename_i he
      exact .leastRecent he rfl (.refl _)
    · rename_i he
      exact .firstIn he rfl (.refl _)
  simp only [CacheOptions.layered, hflush]
  split
  · exact .counting hb
  · exact .counting (.copying hb)

/-- What is to become of the content of a cache by a put: a value that is there is replaced and
nothing else changes, an entry for which there is room is added, and one for which there is none
takes the place of the entry whose key is to go first. -/
structure BoundedPut (capacity : Nat) (held : List κ) (before after : Keyed κ α) (key : κ)
    (value : α) : Prop where
  present : key ∈ held → after.Perm (Keyed.put before key value)
  room : key ∉ held → held.length < capacity → after.Perm (before ++ [(key, value)])
  full : key ∉ held → ¬ held.length < capacity → ∃ eldest rest, held = eldest :: rest ∧
    after.Perm (Keyed.erase before eldest ++ [(key, value)])

theorem Matches.bounded_put {s : BoundedStore κ α policy capacity} {c : Cache κ α}
    (h : Matches s c) (key : κ) (value : α) :
    BoundedPut capacity c.held c.entries (c.put key value).entries key value := by
  obtain ⟨hk, he⟩ := h.held
  obtain ⟨-, he'⟩ := (h.put key value).held
  rw [hk]
  refine ⟨fun hm => ?_, fun hm hroom => ?_, fun hm hfull => ?_⟩
  · exact he'.trans ((s.put_present hm).symm.trans (Keyed.put_perm he key value).symm)
  · rw [s.put_enters hm, (s.enter_room _ hm hroom).2] at he'
    exact he'.trans (he.append_right _).symm
  · obtain ⟨eldest, rest, hks⟩ := s.exists_eldest hfull
    rw [s.put_enters hm, (s.enter_full _ hm hfull hks).2] at he'
    exact ⟨eldest, rest, hks, he'.trans ((Keyed.erase_perm he eldest).append_right _).symm⟩

open CacheCall BoundedStore in
/-- A built cache that is not cleared by time answers any calls as a bounded store does, and
then holds its keys in their order and its entries. These are as old and have the values that
the calls say. -/
theorem built_caches_are_bounded_stores (o : CacheOptions) (id : String) (hsize : 1 ≤ o.size)
    (hflush : o.flushInterval = none) (calls : List (CacheCall κ α)) :
    ∃ (built cache : Cache κ α) (store : BoundedStore κ α o.eviction o.size)
      (answers : List (Option α)),
      o.build id = .ok built ∧ answering onCache calls built = (answers, cache) ∧
      answering onStore calls (empty hsize) = (answers, store) ∧
      cache.held = store.keys ∧ cache.entries.Perm store.entries ∧
      (o.eviction = .lru → ∀ item ∈ store.items, LastUse calls item.key item.since) ∧
      (o.eviction = .fifo → ∀ item ∈ store.items,
        Arrival o.eviction hsize calls item.key item.since) ∧
      (∀ key value, BoundedPut o.size cache.held cache.entries (cache.put key value).entries
        key value) ∧
      cache.size ≤ o.size ∧ (∀ key, key ∈ cache.held ↔ key ∈ cache.entries.map (·.1)) ∧
      ∀ key value, (cache.get key).1 = some value → LastPut calls key value := by
  obtain ⟨built, hb, hm⟩ := matches_build (κ := κ) (α := α) id hsize hflush
  obtain ⟨hanswers, hm⟩ := hm.run calls
  obtain ⟨hkeys, hentries⟩ := hm.held
  refine ⟨built, _, after hsize calls, _, hb, rfl, ?_, hkeys, hentries, ?_, ?_, ?_, ?_, ?_, ?_⟩
  · exact Prod.ext hanswers.symm rfl
  · exact fun hp => lastUse_of_mem hsize hp calls
  · exact fun hp => arrival_of_mem hsize hp calls
  · exact hm.bounded_put
  · have hl := hentries.length_eq
    rw [entries, List.length_map] at hl
    exact Nat.le_trans (Nat.le_of_eq hl) (BoundedStore.orderly _).bounded
  · intro key
    rw [hkeys, ← map_entries, (hentries.map _).mem_iff]
  · intro key value hg
    obtain ⟨item, hi, he⟩ := List.mem_map.mp (hentries.mem_iff.mp (Cache.mem_of_get hg))
    cases he
    exact lastPut_of_mem hsize calls item hi

end

open CacheCall BoundedStore in
/-- A cache for two entries loses the one that was not used for longest. -/
theorem least_recently_used_entry_goes :
    let o : CacheOptions := { size := 2 }
    let calls : List (CacheCall Nat String) :=
      [.put 1 "a", .put 2 "b", .get 1, .put 3 "c", .get 2, .put 3 "d"]
    1 ≤ o.size ∧ o.flushInterval = none ∧
      ∃ built cache : Cache Nat String, o.build "users" = .ok built ∧
        answering onCache calls built = ([none, none, some "a", none, none, none], cache) ∧
        cache.held = [1, 3] ∧ cache.entries.Perm [(1, "a"), (3, "d")] := by
  intro o calls
  refine ⟨by decide, rfl, ?_⟩
  obtain ⟨built, cache, store, answers, hb, hc, hs, hk, he, -⟩ :=
    built_caches_are_bounded_stores o "users" (by decide) rfl calls
  let start : BoundedStore Nat String .lru 2 := empty (by decide)
  have hanswers : (answering onStore calls start).1 =
      [none, none, some "a", none, none, none] := by decide +kernel
  have hkeys : (answering onStore calls start).2.keys = [1, 3] := by decide +kernel
  have hentries : (answering onStore calls start).2.entries = [(1, "a"), (3, "d")] := by
    decide +kernel
  have hs : answering onStore calls start = (answers, store) := hs
  rw [hs] at hanswers hkeys hentries
  exact ⟨built, cache, hb, hanswers ▸ hc, hk.trans hkeys, hentries ▸ he⟩

end MappedSql
