import Mathlib.Data.List.Induction
import MappedSql.Proofs.ChangeReplay

/-!
# Bounded stores

A store with room for so many entries, kept as one list with the oldest entry in front. It says
what a cache is to answer whatever layers it has: which entry goes when there is no room, and
which calls the entries that are left go back to.
-/

namespace MappedSql

variable {κ α : Type}

-- ---------------------------------------------------------------------------
-- Dated entries
-- ---------------------------------------------------------------------------

structure DatedEntry (κ α : Type) where
  key : κ
  value : α
  since : Nat

namespace BoundedStore

/-- Entries under distinct keys, no more than `capacity`, from the oldest to the newest. All
are older than the call with the number `clock`. -/
structure Orderly (capacity clock : Nat) (items : List (DatedEntry κ α)) : Prop where
  distinct : (items.map (·.key)).Nodup
  ordered : items.Pairwise (·.since < ·.since)
  past : ∀ item ∈ items, item.since < clock
  bounded : items.length ≤ capacity

variable {capacity clock : Nat} {items others : List (DatedEntry κ α)} {key : κ}

theorem Orderly.sublist (h : Orderly capacity clock items) (hs : others.Sublist items) :
    Orderly capacity clock others where
  distinct := h.distinct.sublist (hs.map _)
  ordered := h.ordered.sublist hs
  past item hm := h.past item (hs.subset hm)
  bounded := Nat.le_trans hs.length_le h.bounded

theorem Orderly.tick (h : Orderly capacity clock items) : Orderly capacity (clock + 1) items :=
  { h with past := fun item hm => Nat.lt_succ_of_lt (h.past item hm) }

theorem Orderly.append (h : Orderly capacity clock items) (hnew : key ∉ items.map (·.key))
    (hroom : items.length < capacity) (value : α) :
    Orderly capacity (clock + 1) (items ++ [⟨key, value, clock⟩]) where
  distinct := by simpa using h.distinct.concat hnew
  ordered := by
    refine List.pairwise_append.mpr ⟨h.ordered, List.pairwise_singleton _ _, ?_⟩
    intro item hm last hl
    obtain rfl := List.mem_singleton.mp hl
    exact h.past item hm
  past item hm := by
    rcases List.mem_append.mp hm with hm | hm
    · exact h.tick.past item hm
    · obtain rfl := List.mem_singleton.mp hm
      exact Nat.lt_succ_self clock
  bounded := by
    rw [List.length_append]
    exact hroom

theorem Orderly.revalue (h : Orderly capacity clock items) (value : DatedEntry κ α → α) :
    Orderly capacity clock (items.map fun item => { item with value := value item }) where
  distinct := by
    rw [List.map_map]
    exact h.distinct
  ordered := List.pairwise_map.mpr h.ordered
  past item hm := by
    obtain ⟨old, hold, rfl⟩ := List.mem_map.mp hm
    exact h.past old hold
  bounded := by simpa using h.bounded

end BoundedStore

-- ---------------------------------------------------------------------------
-- Bounded stores
-- ---------------------------------------------------------------------------

/-- At most `capacity` entries. Under `.lru` an entry is as old as the last call that put or
got it, under `.fifo` as the call that put it when there was none under its key. -/
structure BoundedStore (κ α : Type) (policy : EvictionPolicy) (capacity : Nat) where
  clock : Nat
  items : List (DatedEntry κ α)
  orderly : BoundedStore.Orderly capacity clock items
  positive : 0 < capacity

namespace BoundedStore

variable {policy : EvictionPolicy} {capacity : Nat}

def empty (h : 0 < capacity) : BoundedStore κ α policy capacity :=
  ⟨0, [], ⟨List.nodup_nil, .nil, by simp, Nat.zero_le _⟩, h⟩

variable (s : BoundedStore κ α policy capacity)

def keys : List κ :=
  s.items.map (·.key)

def entries : Keyed κ α :=
  s.items.map fun item => (item.key, item.value)

theorem map_entries : s.entries.map (·.1) = s.keys := by
  simp [entries, keys]

def clear : BoundedStore κ α policy capacity :=
  { s with
    clock := s.clock + 1
    items := []
    orderly := (s.orderly.sublist (List.nil_sublist _)).tick }

variable [BEq κ] [LawfulBEq κ] (key : κ)

def others : List (DatedEntry κ α) :=
  s.items.filter (!·.key == key)

omit [LawfulBEq κ] in
theorem others_sublist : (s.others key).Sublist s.items :=
  List.filter_sublist

theorem not_mem_others : key ∉ (s.others key).map (·.key) := by
  simp [others]

theorem length_others_lt {key : κ} (h : key ∈ s.keys) : (s.others key).length < capacity := by
  obtain ⟨item, hm, rfl⟩ := List.mem_map.mp h
  have hlt : (s.others item.key).length < s.items.length :=
    List.length_filter_lt_length_iff_exists.mpr ⟨item, hm, by simp⟩
  exact Nat.lt_of_lt_of_le hlt s.orderly.bounded

def remove : Option α × BoundedStore κ α policy capacity :=
  (Keyed.get? s.entries key,
    { s with
      clock := s.clock + 1
      items := s.others key
      orderly := (s.orderly.sublist (s.others_sublist key)).tick })

def renew {key : κ} (h : key ∈ s.keys) (value : α) : BoundedStore κ α policy capacity :=
  { s with
    clock := s.clock + 1
    items := s.others key ++ [⟨key, value, s.clock⟩]
    orderly := (s.orderly.sublist (s.others_sublist key)).append (s.not_mem_others key)
      (s.length_others_lt h) value }

def replace (value : α) : BoundedStore κ α policy capacity :=
  { s with
    clock := s.clock + 1
    items := s.items.map fun item =>
      { item with value := if item.key == key then value else item.value }
    orderly := (s.orderly.revalue _).tick }

def enter {key : κ} (h : key ∉ s.keys) (value : α) : BoundedStore κ α policy capacity :=
  if hroom : s.items.length < capacity then
    { s with
      clock := s.clock + 1
      items := s.items ++ [⟨key, value, s.clock⟩]
      orderly := s.orderly.append h hroom value }
  else
    { s with
      clock := s.clock + 1
      items := s.items.tail ++ [⟨key, value, s.clock⟩]
      orderly := (s.orderly.sublist (List.tail_sublist _)).append
        (fun hm => h (((List.tail_sublist _).map _).subset hm))
        (by have := s.positive; have := s.orderly.bounded; simp; omega) value }

def tick : BoundedStore κ α policy capacity :=
  { s with clock := s.clock + 1, orderly := s.orderly.tick }

theorem mem_keys_of_get? {key : κ} {value : α} (h : Keyed.get? s.entries key = some value) :
    key ∈ s.keys :=
  s.map_entries ▸ List.mem_map_of_mem (f := (·.1)) (Keyed.mem_of_get? h)

def get : Option α × BoundedStore κ α policy capacity :=
  match h : Keyed.get? s.entries key with
  | some value =>
    (some value, if policy = .lru then s.renew (s.mem_keys_of_get? h) value else s.tick)
  | none => (none, s.tick)

def put (value : α) : BoundedStore κ α policy capacity :=
  if h : key ∈ s.keys then
    if policy = .lru then s.renew h value else s.replace key value
  else s.enter h value

end BoundedStore

-- ---------------------------------------------------------------------------
-- The keys and entries of a bounded store
-- ---------------------------------------------------------------------------

section
variable [BEq κ]

theorem Keyed.erase_perm {entries others : Keyed κ α} (h : entries.Perm others) (key : κ) :
    (erase entries key).Perm (erase others key) :=
  h.filter _

theorem Keyed.put_perm {entries others : Keyed κ α} (h : entries.Perm others) (key : κ)
    (value : α) : (put entries key value).Perm (put others key value) := by
  have hc : contains entries key = contains others key := h.any_eq
  unfold put
  rw [hc]
  split
  · exact h.map _
  · exact h.append_right _

variable [LawfulBEq κ]

theorem Keyed.put_of_not_mem {entries : Keyed κ α} {key : κ} (h : key ∉ entries.map (·.1))
    (value : α) : put entries key value = entries ++ [(key, value)] := by
  have hc : ¬ contains entries key := by simpa [contains] using h
  exact if_neg hc

theorem Keyed.erase_put (entries : Keyed κ α) (key : κ) (value : α) :
    erase (put entries key value) key = erase entries key := by
  unfold put
  split
  · rename_i hc
    clear hc
    induction entries with
    | nil => rfl
    | cons entry rest ih =>
      obtain ⟨other, old⟩ := entry
      by_cases hk : other = key
      · simpa [erase, hk] using ih
      · simpa [erase, hk] using ih
  · simp [erase]

theorem Keyed.put_perm_cons_erase {entries : Keyed κ α} (h : (entries.map (·.1)).Nodup)
    (key : κ) (value : α) : (put entries key value).Perm ((key, value) :: erase entries key) :=
  erase_put entries key value ▸
    perm_cons_erase (nodup_put h) (get?_put_self entries key value)

end

namespace BoundedStore

variable {policy : EvictionPolicy} {capacity : Nat} (s : BoundedStore κ α policy capacity)

theorem entries_nodup : (s.entries.map (·.1)).Nodup :=
  s.map_entries ▸ s.orderly.distinct

variable [BEq κ] [LawfulBEq κ] {key : κ} {value : α}

omit [LawfulBEq κ] in
theorem entries_others (key : κ) :
    (s.others key).map (fun item => (item.key, item.value)) = Keyed.erase s.entries key := by
  rw [Keyed.erase, entries, List.filter_map]
  rfl

theorem keys_others (key : κ) : (s.others key).map (·.key) = s.keys.erase key := by
  rw [keys, List.Nodup.erase_eq_filter s.orderly.distinct, List.filter_map]
  rfl

theorem remove_spec (key : κ) :
    (s.remove key).1 = Keyed.get? s.entries key ∧ (s.remove key).2.keys = s.keys.erase key ∧
      (s.remove key).2.entries = Keyed.erase s.entries key :=
  ⟨rfl, s.keys_others key, s.entries_others key⟩

theorem keys_renew (h : key ∈ s.keys) : (s.renew h value).keys = Cache.promote s.keys key := by
  rw [Cache.promote, if_pos (List.contains_iff_mem.mpr h), ← s.keys_others]
  exact List.map_append

theorem entries_renew (h : key ∈ s.keys) :
    (Keyed.put s.entries key value).Perm (s.renew h value).entries := by
  have he : (s.renew h value).entries = Keyed.erase s.entries key ++ [(key, value)] := by
    rw [← s.entries_others]
    exact List.map_append
  rw [he]
  exact (Keyed.put_perm_cons_erase s.entries_nodup key value).trans
    (List.perm_append_singleton ..).symm

omit [LawfulBEq κ] in
theorem keys_replace : (s.replace key value).keys = s.keys := by
  simp [replace, keys]

theorem entries_replace (h : key ∈ s.keys) :
    Keyed.put s.entries key value = (s.replace key value).entries := by
  have hc : Keyed.contains s.entries key := by
    simpa [Keyed.contains, entries, keys] using h
  rw [Keyed.put, if_pos hc]
  simp only [replace, entries, List.map_map]
  refine List.map_congr_left fun item _ => ?_
  by_cases hk : item.key = key
  · simp [hk]
  · simp [hk]

omit [BEq κ] [LawfulBEq κ] in
theorem enter_room (value : α) (h : key ∉ s.keys) (hroom : s.keys.length < capacity) :
    (s.enter h value).keys = s.keys ++ [key] ∧
      (s.enter h value).entries = s.entries ++ [(key, value)] := by
  have hroom' : s.items.length < capacity := by simpa [keys] using hroom
  simp [enter, hroom', keys, entries]

theorem others_eldest {eldest : κ} {rest : List κ} (hk : s.keys = eldest :: rest) :
    s.others eldest = s.items.tail := by
  have hd := s.orderly.distinct
  unfold others
  unfold keys at hk
  cases hi : s.items with
  | nil => simp [hi] at hk
  | cons item items =>
    rw [hi, List.map_cons] at hk hd
    obtain ⟨rfl, -⟩ := List.cons.inj hk
    have hne : ∀ other ∈ items, other.key ≠ item.key := fun other hm he =>
      (List.nodup_cons.mp hd).1 (he ▸ List.mem_map_of_mem hm)
    simpa [List.filter_eq_self] using hne

theorem enter_full (value : α) (h : key ∉ s.keys) (hfull : ¬ s.keys.length < capacity)
    {eldest : κ} {rest : List κ} (hk : s.keys = eldest :: rest) :
    (s.enter h value).keys = rest ++ [key] ∧
      (s.enter h value).entries = Keyed.erase s.entries eldest ++ [(key, value)] := by
  have hfull' : ¬ s.items.length < capacity := by simpa [keys] using hfull
  have ht : s.items.tail.map (·.key) = rest := by rw [List.map_tail, ← keys, hk, List.tail_cons]
  rw [← s.entries_others, s.others_eldest hk, ← ht]
  simp [enter, hfull', keys, entries]

omit [BEq κ] [LawfulBEq κ] in
theorem exists_eldest (hfull : ¬ s.keys.length < capacity) :
    ∃ eldest rest, s.keys = eldest :: rest :=
  List.exists_cons_of_length_pos (Nat.lt_of_lt_of_le s.positive (Nat.le_of_not_lt hfull))

theorem get_fst (key : κ) : (s.get key).1 = Keyed.get? s.entries key := by
  unfold get
  split <;> simp_all

theorem put_enters (h : key ∉ s.keys) : s.put key value = s.enter h value :=
  dif_neg h

theorem put_present (h : key ∈ s.keys) :
    (Keyed.put s.entries key value).Perm (s.put key value).entries := by
  unfold put
  rw [dif_pos h]
  split
  · exact s.entries_renew h
  · exact .of_eq (s.entries_replace h)

theorem get_lru (hp : policy = .lru) (key : κ) :
    (s.get key).2.keys = Cache.promote s.keys key ∧ s.entries.Perm (s.get key).2.entries := by
  unfold get
  split
  · rename_i value hg
    have hk := s.mem_keys_of_get? hg
    rw [if_pos hp]
    refine ⟨s.keys_renew hk, (Keyed.perm_cons_erase s.entries_nodup hg).trans ?_⟩
    exact (Keyed.put_perm_cons_erase s.entries_nodup key value).symm.trans (s.entries_renew hk)
  · rename_i hg
    have hk : key ∉ s.keys := s.map_entries ▸ Keyed.get?_eq_none_iff.mp hg
    exact ⟨(if_neg (mt List.contains_iff_mem.mp hk)).symm, .refl _⟩

theorem get_fifo (hp : policy = .fifo) (key : κ) :
    (s.get key).2.keys = s.keys ∧ (s.get key).2.entries = s.entries := by
  unfold get
  split
  · rw [if_neg (by simp [hp])]
    exact ⟨rfl, rfl⟩
  · exact ⟨rfl, rfl⟩

end BoundedStore

-- ---------------------------------------------------------------------------
-- Calls
-- ---------------------------------------------------------------------------

inductive CacheCall (κ α : Type)
  | put (key : κ) (value : α)
  | get (key : κ)
  | remove (key : κ)
  | clear

namespace CacheCall

def Changes (key : κ) : CacheCall κ α → Prop
  | .put other _ | .remove other => other = key
  | .get _ => False
  | .clear => True

def Uses (key : κ) : CacheCall κ α → Prop
  | .put other _ | .get other => other = key
  | .remove _ | .clear => False

/-- The last call that concerns the value under the key put this one. -/
def LastPut (calls : List (CacheCall κ α)) (key : κ) (value : α) : Prop :=
  ∃ earlier later, calls = earlier ++ .put key value :: later ∧ ∀ call ∈ later, ¬ call.Changes key

def LastUse (calls : List (CacheCall κ α)) (key : κ) (number : Nat) : Prop :=
  ∃ earlier call later, calls = earlier ++ call :: later ∧ earlier.length = number ∧
    call.Uses key ∧ ∀ call ∈ later, ¬ call.Uses key

variable [BEq κ] [LawfulBEq κ] {policy : EvictionPolicy} {capacity : Nat}

def onStore : CacheCall κ α → BoundedStore κ α policy capacity →
    Option α × BoundedStore κ α policy capacity
  | .put key value, s => (none, s.put key value)
  | .get key, s => s.get key
  | .remove key, s => s.remove key
  | .clear, s => (none, s.clear)

end CacheCall

def answering {S : Type} (answer : CacheCall κ α → S → Option α × S) :
    List (CacheCall κ α) → S → List (Option α) × S
  | [], s => ([], s)
  | call :: calls, s =>
    let (first, s) := answer call s
    let (rest, s) := answering answer calls s
    (first :: rest, s)

theorem answering_append {S : Type} (answer : CacheCall κ α → S → Option α × S)
    (calls later : List (CacheCall κ α)) (s : S) :
    answering answer (calls ++ later) s =
      ((answering answer calls s).1 ++ (answering answer later (answering answer calls s).2).1,
        (answering answer later (answering answer calls s).2).2) := by
  induction calls generalizing s with
  | nil => rfl
  | cons call calls ih => simp only [List.cons_append, answering, ih]

-- ---------------------------------------------------------------------------
-- What the entries go back to
-- ---------------------------------------------------------------------------

namespace BoundedStore

variable [BEq κ] [LawfulBEq κ] {policy : EvictionPolicy} {capacity : Nat}

open CacheCall

def after (h : 0 < capacity) (calls : List (CacheCall κ α)) : BoundedStore κ α policy capacity :=
  (answering onStore calls (empty h)).2

theorem after_concat (h : 0 < capacity) (calls : List (CacheCall κ α)) (call : CacheCall κ α) :
    (after h (calls ++ [call]) : BoundedStore κ α policy capacity) =
      (call.onStore (after h calls)).2 := by
  rw [after, answering_append]
  rfl

theorem clock_onStore (call : CacheCall κ α) (s : BoundedStore κ α policy capacity) :
    (call.onStore s).2.clock = s.clock + 1 := by
  cases call with
  | put key value =>
    simp only [onStore, put, enter]
    split <;> split <;> rfl
  | get key =>
    simp only [onStore, get]
    split
    · dsimp only
      split <;> rfl
    · rfl
  | remove key => rfl
  | clear => rfl

theorem clock_after (h : 0 < capacity) (calls : List (CacheCall κ α)) :
    (after h calls : BoundedStore κ α policy capacity).clock = calls.length := by
  induction calls using List.reverseRecOn with
  | nil => rfl
  | append_singleton calls call ih => rw [after_concat, clock_onStore, ih, List.length_append]; rfl

inductive Origin (s : BoundedStore κ α policy capacity) (call : CacheCall κ α)
    (item : DatedEntry κ α) : Prop
  | kept (hm : item ∈ s.items) (hc : ¬ call.Changes item.key)
      (hu : policy = .lru → ¬ call.Uses item.key)
  | replaced (old : DatedEntry κ α) (hm : old ∈ s.items) (hk : old.key = item.key)
      (hs : old.since = item.since) (hp : policy = .fifo)
      (hc : call = .put item.key item.value)
  | renewed (old : DatedEntry κ α) (hm : old ∈ s.items) (hk : old.key = item.key)
      (hv : old.value = item.value) (hp : policy = .lru) (hs : item.since = s.clock)
      (hc : call = .get item.key)
  | entered (hs : item.since = s.clock) (hc : call = .put item.key item.value)
      (hn : policy = .fifo → item.key ∉ s.keys)

theorem ne_of_mem_others {s : BoundedStore κ α policy capacity} {key : κ} {item : DatedEntry κ α}
    (h : item ∈ s.others key) : key ≠ item.key := fun he => by
  simp [others, he] at h

theorem origin_put {s : BoundedStore κ α policy capacity} {key : κ} {value : α}
    {item : DatedEntry κ α} (h : item ∈ (s.put key value).items) :
    Origin s (.put key value) item := by
  have hnew : ∀ kept : List (DatedEntry κ α), item ∈ kept ++ [⟨key, value, s.clock⟩] →
      (∀ other ∈ kept, other ∈ s.items ∧ key ≠ other.key) →
      (policy = .fifo → key ∉ s.keys) → Origin s (.put key value) item := by
    intro kept hm hkept hn
    rcases List.mem_append.mp hm with hm | hm
    · obtain ⟨hi, hne⟩ := hkept item hm
      exact .kept hi hne fun _ => hne
    · obtain rfl := List.mem_singleton.mp hm
      exact .entered rfl rfl hn
  unfold put at h
  split at h
  · rename_i hk
    split at h
    · rename_i hp
      refine hnew _ h (fun other hm => ⟨(s.others_sublist key).subset hm, ne_of_mem_others hm⟩) ?_
      intro hf
      rw [hp] at hf
      cases hf
    · rename_i hp
      have hf : policy = .fifo := by
        cases policy
        exacts [absurd rfl hp, rfl]
      obtain ⟨old, hm, rfl⟩ := List.mem_map.mp h
      by_cases he : old.key = key
      · exact .replaced old hm rfl rfl hf (by simp [he])
      · have hne : ¬ (old.key == key) = true := by simpa using he
        refine .kept (by simpa [hne] using hm) (Ne.symm he) fun hl => absurd hl hp
  · rename_i hk
    have hother : ∀ other ∈ s.items, key ≠ other.key := fun other hm he =>
      hk (he ▸ List.mem_map_of_mem hm)
    unfold enter at h
    split at h
    · exact hnew _ h (fun other hm => ⟨hm, hother other hm⟩) fun _ => hk
    · exact hnew _ h (fun other hm =>
        ⟨List.mem_of_mem_tail hm, hother other (List.mem_of_mem_tail hm)⟩) fun _ => hk

theorem origin_get {s : BoundedStore κ α policy capacity} {key : κ} {item : DatedEntry κ α}
    (h : item ∈ (s.get key).2.items) : Origin s (.get key) item := by
  unfold get at h
  split at h
  · rename_i value hg
    dsimp only at h
    split at h
    · rename_i hp
      rcases List.mem_append.mp h with hm | hm
      · exact .kept ((s.others_sublist key).subset hm) id fun _ => ne_of_mem_others hm
      · obtain rfl := List.mem_singleton.mp hm
        obtain ⟨old, ho, he⟩ := List.mem_map.mp (Keyed.mem_of_get? hg)
        cases he
        exact .renewed old ho rfl rfl hp rfl rfl
    · rename_i hp
      exact .kept h id fun hl => absurd hl hp
  · rename_i hg
    have hk : key ∉ s.keys := s.map_entries ▸ Keyed.get?_eq_none_iff.mp hg
    exact .kept h id fun _ he => hk (he ▸ List.mem_map_of_mem h)

theorem origin_onStore {s : BoundedStore κ α policy capacity} {call : CacheCall κ α}
    {item : DatedEntry κ α} (h : item ∈ (call.onStore s).2.items) : Origin s call item := by
  cases call with
  | put key value => exact origin_put h
  | get key => exact origin_get h
  | remove key =>
    exact .kept ((s.others_sublist key).subset h) (ne_of_mem_others h) fun _ => id
  | clear => cases h

theorem lastPut_of_mem (h : 0 < capacity) (calls : List (CacheCall κ α)) :
    ∀ item ∈ (after h calls : BoundedStore κ α policy capacity).items,
      LastPut calls item.key item.value := by
  induction calls using List.reverseRecOn with
  | nil =>
    intro item hm
    cases hm
  | append_singleton calls call ih =>
    intro item hm
    rw [after_concat] at hm
    have hlast : call = .put item.key item.value → LastPut (calls ++ [call]) item.key item.value :=
      fun hc => ⟨calls, [], by rw [hc], by simp⟩
    have hearlier : LastPut calls item.key item.value → ¬ call.Changes item.key →
        LastPut (calls ++ [call]) item.key item.value := by
      rintro ⟨earlier, later, rfl, hl⟩ hc
      exact ⟨earlier, later ++ [call], by simp, by simpa [or_imp, forall_and] using ⟨hl, hc⟩⟩
    cases origin_onStore hm with
    | kept hm hc => exact hearlier (ih item hm) hc
    | replaced _ _ _ _ _ hc => exact hlast hc
    | renewed old hm hk hv _ _ hc => exact hearlier (hk ▸ hv ▸ ih old hm) (hc ▸ id)
    | entered _ hc => exact hlast hc

theorem lastUse_of_mem (h : 0 < capacity) (hp : policy = .lru) (calls : List (CacheCall κ α)) :
    ∀ item ∈ (after h calls : BoundedStore κ α policy capacity).items,
      LastUse calls item.key item.since := by
  induction calls using List.reverseRecOn with
  | nil =>
    intro item hm
    cases hm
  | append_singleton calls call ih =>
    intro item hm
    rw [after_concat] at hm
    have hnow : item.since = (after h calls : BoundedStore κ α policy capacity).clock →
        call.Uses item.key → LastUse (calls ++ [call]) item.key item.since :=
      fun hs hu => ⟨calls, call, [], rfl, by rw [hs, clock_after], hu, by simp⟩
    cases origin_onStore hm with
    | kept hm _ hu =>
      obtain ⟨earlier, use, later, rfl, hn, huse, hl⟩ := ih item hm
      exact ⟨earlier, use, later ++ [call], by simp, hn, huse,
        by simpa [or_imp, forall_and] using ⟨hl, hu hp⟩⟩
    | replaced _ _ _ _ hf _ =>
      rw [hp] at hf
      cases hf
    | renewed _ _ _ _ _ hs hc => exact hnow hs (hc ▸ rfl)
    | entered hs hc => exact hnow hs (hc ▸ rfl)

/-- The call with this number put an entry under the key when there was none, and since then
there has always been one. -/
def Arrival (policy : EvictionPolicy) (h : 0 < capacity) (calls : List (CacheCall κ α)) (key : κ)
    (number : Nat) : Prop :=
  let held (calls : List (CacheCall κ α)) := (after h calls : BoundedStore κ α policy capacity).keys
  ∃ earlier value later, calls = earlier ++ .put key value :: later ∧ earlier.length = number ∧
    key ∉ held earlier ∧
    ∀ part, part.IsPrefix later → key ∈ held (earlier ++ .put key value :: part)

theorem arrival_of_mem (h : 0 < capacity) (hp : policy = .fifo) (calls : List (CacheCall κ α)) :
    ∀ item ∈ (after h calls : BoundedStore κ α policy capacity).items,
      Arrival policy h calls item.key item.since := by
  induction calls using List.reverseRecOn with
  | nil =>
    intro item hm
    cases hm
  | append_singleton calls call ih =>
    intro item hm
    have hk : item.key ∈ (after h (calls ++ [call]) : BoundedStore κ α policy capacity).keys :=
      List.mem_map_of_mem hm
    rw [after_concat] at hm
    have hstay : Arrival policy h calls item.key item.since →
        Arrival policy h (calls ++ [call]) item.key item.since := by
      rintro ⟨earlier, value, later, rfl, hn, hnew, hl⟩
      refine ⟨earlier, value, later ++ [call], by simp, hn, hnew, fun part hpart => ?_⟩
      rcases List.prefix_concat_iff.mp hpart with rfl | hpart
      · simpa using hk
      · exact hl part hpart
    cases origin_onStore hm with
    | kept hm => exact hstay (ih item hm)
    | replaced old hm hk hs => exact hstay (hk ▸ hs ▸ ih old hm)
    | renewed _ _ _ _ hl =>
      rw [hp] at hl
      cases hl
    | entered hs hc hn =>
      subst hc
      exact ⟨calls, item.value, [], rfl, by rw [hs, clock_after], hn hp, fun part hpart => by
        rwa [List.prefix_nil.mp hpart]⟩

end BoundedStore

end MappedSql
