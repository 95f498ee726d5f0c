import Mathlib.Data.List.Induction
import Mathlib.Logic.Function.Basic
import MappedSql.Proofs.OverlayReplay

/-!
# Transactions refine replay

Transactions on shared caches run side by side, each with overlays of its own. What one of them
reads is what it would read had it made its changes on the shared cache as it is now, in their
order; its commit makes the cache hold just that. Until then it changes nothing that a cache
holds. This is so after every run of any number of transactions.

The caches are to have distinct ids, room for all keys that are used, and no clearing by time.
-/

namespace MappedSql

variable {κ α : Type} [BEq κ]

-- ---------------------------------------------------------------------------
-- Transactions side by side
-- ---------------------------------------------------------------------------

/-- What a transaction may do. Its commit may go through the overlays, and through the writes
and removals of each, in any order. -/
inductive CacheStep (κ α : Type)
  | get (r : CacheRef) (key : κ)
  | change (r : CacheRef) (c : Change κ α)
  | commit (arrange : Overlays κ α → Overlays κ α)
  | rollback

namespace CacheStep

/-- The step concerns these caches and keys, and a commit makes the changes that there are. -/
def Within (ids : List String) (keys : Nat → List κ) : CacheStep κ α → Prop
  | .get r _ => r.In ids
  | .change r c => r.In ids ∧ c.Within (keys r.index)
  | .commit arrange => ∀ os : Overlays κ α, os.Reordered (arrange os)
  | .rollback => True

def IsCommit : CacheStep κ α → Prop
  | .commit _ => True
  | _ => False

def ends : CacheStep κ α → Bool
  | .commit _ | .rollback => true
  | _ => false

/-- The changes of a cache that wait for a commit after the step. -/
def pending (r : CacheRef) (changes : List (Change κ α)) : CacheStep κ α → List (Change κ α)
  | .get _ _ => changes
  | .change q c => if q = r then changes ++ [c] else changes
  | .commit _ | .rollback => []

end CacheStep

structure Transactions (κ α : Type) where
  pool : CachePool κ α
  overlays : Nat → Overlays κ α := fun _ => []

namespace Transactions

def set (t : Transactions κ α) (i : Nat) (os : Overlays κ α) (p : CachePool κ α) :
    Transactions κ α where
  pool := p
  overlays := Function.update t.overlays i os

/-- One step of a transaction: what it finds, and what there is after it. -/
def perform (t : Transactions κ α) (i : Nat) :
    CacheStep κ α → Option α × Transactions κ α
  | .get r key =>
    let (found, os, p) := (t.overlays i).get t.pool r key
    (found, t.set i os p)
  | .change r c => (none, t.set i ((t.overlays i).change r c) t.pool)
  | .commit arrange =>
    (none, t.set i (t.overlays i).rollback ((arrange (t.overlays i)).commit t.pool).2)
  | .rollback => (none, t.set i (t.overlays i).rollback t.pool)

abbrev Steps (κ α : Type) := List (Nat × CacheStep κ α)

def run (t : Transactions κ α) (steps : Steps κ α) : Transactions κ α :=
  steps.foldl (fun t (i, step) => (t.perform i step).2) t

/-- The changes that a transaction has made of a cache since its last commit or rollback. -/
def pending (i : Nat) (steps : Steps κ α) (r : CacheRef) : List (Change κ α) :=
  steps.foldl (fun changes (j, step) => if j = i then step.pending r changes else changes) []

def idle (i : Nat) (steps : Steps κ α) : Bool :=
  steps.foldl (fun idle (j, step) => if j = i then step.ends else idle) true

variable {ids : List String} {keys : Nat → List κ} {t : Transactions κ α} {i j : Nat}
  {steps : Steps κ α} {step : CacheStep κ α} {r : CacheRef}

theorem run_concat : t.run (steps ++ [(i, step)]) = ((t.run steps).perform i step).2 := by
  simp [run]

omit [BEq κ] in
theorem pending_concat : pending j (steps ++ [(i, step)]) r =
    if i = j then step.pending r (pending j steps r) else pending j steps r := by
  simp [pending]

omit [BEq κ] in
theorem idle_concat :
    idle j (steps ++ [(i, step)]) = if i = j then step.ends else idle j steps := by
  simp [idle]

omit [BEq κ] in
theorem pending_within (h : ∀ s ∈ steps, s.2.Within ids keys) :
    ∀ c ∈ pending i steps r, c.Within (keys r.index) := by
  induction steps using List.reverseRecOn with
  | nil => simp [pending]
  | append_singleton steps last ih =>
    obtain ⟨j, step⟩ := last
    have hsteps := ih fun s hs => h s (by simp [hs])
    have hstep : step.Within ids keys := h (j, step) (by simp)
    rw [pending_concat]
    split
    · cases step with
      | get q key => exact hsteps
      | change q c =>
        simp only [CacheStep.pending]
        split
        · rename_i hq
          subst hq
          intro other ho
          rcases List.mem_append.mp ho with ho | ho
          · exact hsteps other ho
          · exact List.mem_singleton.mp ho ▸ hstep.2
        · exact hsteps
      | commit arrange => exact fun _ ho => absurd ho (List.not_mem_nil)
      | rollback => exact fun _ ho => absurd ho (List.not_mem_nil)
    · exact hsteps

/-- The transactions after steps: the overlays of each show what the replay of its changes
gives. -/
structure Follows (ids : List String) (keys : Nat → List κ) (steps : Steps κ α)
    (t : Transactions κ α) : Prop where
  named : t.pool.ids = ids
  shared : t.pool.Shared keys
  follow : ∀ i, (t.overlays i).Follow ids keys (pending i steps)
  idle : ∀ i, idle i steps → ∀ entry ∈ t.overlays i, entry.2.reset = entry.2

theorem Follows.set (h : Follows ids keys steps t) {os : Overlays κ α} {p : CachePool κ α}
    (hn : p.ids = ids) (hp : p.Shared keys)
    (hf : os.Follow ids keys (pending i (steps ++ [(i, step)])))
    (hi : step.ends → ∀ entry ∈ os, entry.2.reset = entry.2) :
    Follows ids keys (steps ++ [(i, step)]) (t.set i os p) where
  named := hn
  shared := hp
  follow j := by
    by_cases hj : i = j
    · subst hj
      simpa [Transactions.set] using hf
    · have hs : pending j (steps ++ [(i, step)]) = pending j steps :=
        funext fun r => pending_concat.trans (if_neg hj)
      simpa [Transactions.set, Function.update_of_ne (Ne.symm hj), hs] using h.follow j
  idle j hd := by
    rw [idle_concat] at hd
    by_cases hj : i = j
    · subst hj
      simpa [Transactions.set] using hi (by simpa using hd)
    · rw [if_neg hj] at hd
      simpa [Transactions.set, Function.update_of_ne (Ne.symm hj)] using h.idle j hd

variable [LawfulBEq κ]

theorem Follows.perform (h : Follows ids keys steps t) (hstep : step.Within ids keys) :
    Follows ids keys (steps ++ [(i, step)]) (t.perform i step).2 := by
  have hd : ids.Nodup := h.named ▸ h.shared.distinct
  have hp : pending i (steps ++ [(i, step)]) = fun r => step.pending r (pending i steps r) :=
    funext fun r => pending_concat.trans (if_pos rfl)
  have hquiet : ∀ entry ∈ (t.overlays i).rollback, entry.2.reset = entry.2 := by
    intro entry he
    obtain ⟨old, -, rfl⟩ := List.mem_map.mp he
    rfl
  cases step with
  | get r key =>
    obtain ⟨hn, hsh, -⟩ := h.shared.overlays_get (t.overlays i) r key
    refine h.set (hn.trans h.named) hsh ?_ fun he => absurd he Bool.false_ne_true
    rw [hp]
    exact (h.follow i).get hd t.pool hstep key
  | change r c =>
    refine h.set h.named h.shared ?_ fun he => absurd he Bool.false_ne_true
    refine (h.follow i).change hd hstep.1 hstep.2 ?_ fun q hq => ?_
    · rw [hp]
      exact if_pos rfl
    · rw [hp]
      exact if_neg (Ne.symm hq)
  | commit arrange =>
    have hf := (h.follow i).reordered (hstep (t.overlays i))
    refine h.set ((Overlays.ids_commit _ _).trans h.named) (hf.commit h.named h.shared).1 ?_
      fun _ => hquiet
    rw [hp]
    exact (h.follow i).rollback
  | rollback =>
    refine h.set h.named h.shared ?_ fun _ => hquiet
    rw [hp]
    exact (h.follow i).rollback

theorem follows_run (hp : t.pool.Shared keys) (hn : t.overlays = fun _ => [])
    (hs : ∀ s ∈ steps, s.2.Within t.pool.ids keys) :
    Follows t.pool.ids keys steps (t.run steps) := by
  induction steps using List.reverseRecOn with
  | nil =>
    exact
      { named := rfl
        shared := hp
        follow := fun i => hn ▸ Overlays.follow_nil
        idle := fun i _ => by simp [run, hn] }
  | append_singleton steps last ih =>
    obtain ⟨i, step⟩ := last
    have hsteps : ∀ s ∈ steps, s.2.Within t.pool.ids keys := fun s hs' => hs s (by simp [hs'])
    rw [run_concat]
    exact (ih hsteps).perform (hs (i, step) (by simp))

omit [LawfulBEq κ] in
theorem commit_idle {os others : Overlays κ α} (h : ∀ entry ∈ os, entry.2.reset = entry.2)
    (hr : os.Reordered others) (p : CachePool κ α) : (others.commit p).2 = p := by
  have hchanges : ∀ other ∈ others, other.2.changes = [] := by
    obtain ⟨mid, ha, hp⟩ := hr
    intro other ho
    obtain ⟨entry, he, -, hr⟩ := ha.mem (hp.mem_iff.mp ho)
    rw [← h entry he] at hr
    simp [Overlay.changes, hr.clears, List.perm_nil.mp hr.writes, List.perm_nil.mp hr.removals,
      Overlay.reset]
  unfold Overlays.commit
  dsimp only
  clear hr
  induction others with
  | nil => rfl
  | cons other others ih =>
    rw [List.forall_mem_cons] at hchanges
    have hc : (other.2.commit p).2 = p := by
      have hid : other.2.applyTo = id := by
        funext c
        rw [Overlay.applyTo_eq_replay, hchanges.1]
        rfl
      rw [Overlay.commit, hid]
      simp [CachePool.modify]
    rw [List.foldl_cons, hc]
    exact ih hchanges.2

/-- Whatever transactions do on shared caches, side by side and in any order: a lookup finds what
is found after a replay of the own changes on the cache as it is; only a commit changes what a
cache holds, and makes it what that replay gives, in whatever order it makes the changes; a
rollback changes nothing; and neither does a commit or a rollback without anything before it. -/
theorem overlays_refine_replay (p : CachePool κ α) (keys : Nat → List κ) (hp : p.Shared keys)
    (steps : Steps κ α) (hs : ∀ s ∈ steps, s.2.Within p.ids keys) (i : Nat) :
    let t := run { pool := p } steps
    (∀ r key c, r.In p.ids → t.pool.cache? r = some c →
      (t.perform i (.get r key)).1 = ((replay (pending i steps r) c).get key).1) ∧
    (∀ step : CacheStep κ α, step.Within p.ids keys → ¬ step.IsCommit →
      (t.perform i step).2.pool.content = t.pool.content) ∧
    (∀ arrange : Overlays κ α → Overlays κ α, (∀ os : Overlays κ α, os.Reordered (arrange os)) →
      ∀ r c, r.In p.ids → t.pool.cache? r = some c →
        (t.perform i (.commit arrange)).2.pool.content r = (replay (pending i steps r) c).lookup) ∧
    (t.perform i .rollback).2.pool = t.pool ∧
    (idle i steps → (t.perform i .rollback).2 = t ∧
      ∀ arrange : Overlays κ α → Overlays κ α, (∀ os : Overlays κ α, os.Reordered (arrange os)) →
        (t.perform i (.commit arrange)).2 = t) := by
  intro t
  have h : Follows p.ids keys steps t := follows_run (t := { pool := p }) hp rfl hs
  have hd : p.ids.Nodup := hp.distinct
  have hw (r : CacheRef) := pending_within (i := i) (r := r) hs
  refine ⟨fun r key c hr hc => ?_, fun step hw hn => ?_, fun arrange ha r c hr hc => ?_, rfl,
    fun hi => ?_⟩
  · exact (h.follow i).get_fst hd h.shared hr hc (hw r) key
  · cases step with
    | get r key => exact (h.shared.overlays_get (t.overlays i) r key).2.2
    | change r c => rfl
    | commit arrange => exact (hn trivial).elim
    | rollback => rfl
  · have hf := (h.follow i).reordered (ha (t.overlays i))
    have hc' : t.pool.content r = c.lookup := by
      funext key
      rw [CachePool.content, hc, Option.bind_some]
    rw [(lookup_replay (h.shared.roomy r.index c hc) (hw r)).1, ← hc']
    exact (hf.commit h.named h.shared).2 r hr
  · have ho : (t.overlays i).rollback = t.overlays i := by
      conv_rhs => rw [← List.map_id (t.overlays i)]
      refine List.map_congr_left fun entry he => ?_
      exact congrArg (entry.1, ·) (h.idle i hi entry he)
    have ht : t.set i (t.overlays i).rollback t.pool = t := by
      rw [ho, Transactions.set, Function.update_eq_self]
    refine ⟨ht, fun arrange ha => ?_⟩
    have hp := commit_idle (h.idle i hi) (ha (t.overlays i)) t.pool
    simpa [perform, hp] using ht

def sharedPair : CachePool Nat Nat where
  caches := [.leastRecent 2 [1] (.store "pair" [(1, 10)])]

/-- One transaction clears the cache and puts a key; meanwhile another one removes a key and
commits. -/
def overlapping : Steps Nat Nat :=
  [(0, .change ⟨"pair", 0⟩ .clear), (0, .change ⟨"pair", 0⟩ (.put 2 20)),
    (1, .change ⟨"pair", 0⟩ (.remove 1)), (1, .commit id)]

theorem overlapping_refines_replay :
    sharedPair.Shared (fun _ => [1, 2]) ∧
    (∀ s ∈ overlapping, s.2.Within sharedPair.ids fun _ => [1, 2]) ∧
    ((run { pool := sharedPair } overlapping).perform 0 (.get ⟨"pair", 0⟩ 2)).1 = some 20 ∧
    ((run { pool := sharedPair } overlapping).perform 0 (.commit id)).2.pool.content ⟨"pair", 0⟩ =
      fun key => if 2 = key then some 20 else none := by
  have hp : sharedPair.Shared (fun _ => [1, 2]) := by
    refine ⟨by decide, fun i c hc => ?_⟩
    cases i with
    | zero =>
      cases hc
      simp [Cache.Roomy]
    | succ i => cases hc
  have hs : ∀ s ∈ overlapping, s.2.Within sharedPair.ids fun _ => [1, 2] := by
    simp [overlapping, CacheStep.Within, Change.Within, CacheRef.In, CachePool.ids, sharedPair,
      Cache.id, Overlays.Reordered.refl]
  obtain ⟨hget, -, hcommit, -, -⟩ :=
    overlays_refine_replay sharedPair (fun _ => [1, 2]) hp overlapping hs 0
  have hr : CacheRef.In sharedPair.ids ⟨"pair", 0⟩ := rfl
  have hc : (run { pool := sharedPair } overlapping).pool.cache? ⟨"pair", 0⟩ =
      some (.leastRecent 2 [] (.store "pair" [])) := rfl
  have hpending : pending 0 overlapping ⟨"pair", 0⟩ = [.clear, .put 2 20] := rfl
  have hreplay : replay [.clear, .put 2 20] (.leastRecent 2 [] (.store "pair" [])) =
      .leastRecent 2 [2] (.store "pair" [(2, 20)]) := by
    simp [replay, Change.applyTo, Cache.clear, Cache.put, Keyed.put, Keyed.contains]
  refine ⟨hp, hs, ?_, ?_⟩
  · rw [hget _ _ _ hr hc, hpending, hreplay]
    rfl
  · rw [hcommit id Overlays.Reordered.refl _ _ hr hc, hpending, hreplay]
    funext key
    simp [Cache.lookup, Cache.entries, Keyed.get?]

end Transactions

end MappedSql
