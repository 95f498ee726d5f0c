import MappedSql.Entries
import MappedSql.Number.Double

/-!
# Caches

A cache is a store of entries in layers. A layer that bounds the store keeps the keys in the
order in which they are to go: by their last use, or by when they came. Other layers empty
the store when it is stale, or count how often a key was found.
-/

namespace MappedSql

inductive Cache (κ α : Type)
  | store (id : String) (entries : Keyed κ α)
  /-- Holds at most `capacity` keys, and drops the one that was not used for longest. The keys
  are in the order of their last use. -/
  | leastRecent (capacity : Nat) (keys : List κ) (inner : Cache κ α)
  /-- Holds at most `capacity` keys, and drops the one that came first. The keys are in the
  order in which they came. -/
  | firstIn (capacity : Nat) (keys : List κ) (inner : Cache κ α)
  /-- Is emptied before it is used once `interval` milliseconds have passed since it was emptied.
  `ages` tells how many have passed at each use to come; at its end none have. -/
  | scheduled (interval : Nat) (inner : Cache κ α) (ages : List Nat := [])
  /-- Hands out copies; values here cannot be changed anyway. -/
  | copying (inner : Cache κ α)
  | counting (requests hits : Nat) (inner : Cache κ α)
  deriving Repr

namespace Cache

variable {κ α : Type}

def id : Cache κ α → String
  | .store id _ => id
  | .leastRecent _ _ inner | .firstIn _ _ inner | .scheduled _ inner _ | .copying inner
  | .counting _ _ inner => inner.id

def entries : Cache κ α → Keyed κ α
  | .store _ entries => entries
  | .leastRecent _ _ inner | .firstIn _ _ inner | .scheduled _ inner _ | .copying inner
  | .counting _ _ inner => inner.entries

def size (c : Cache κ α) : Nat :=
  c.entries.length

def ratio (requests hits : Nat) : Double :=
  if requests = 0 then .ofNat 0 else .div (.ofNat hits) (.ofNat requests)

def hitRatio? : Cache κ α → Option Double
  | .store _ _ => none
  | .counting requests hits _ => some (ratio requests hits)
  | .leastRecent _ _ inner | .firstIn _ _ inner | .scheduled _ inner _ | .copying inner =>
    inner.hitRatio?

def isStale (interval : Nat) (ages : List Nat) : Bool :=
  interval ≤ ages.headD 0

def depth : Cache κ α → Nat
  | .store _ _ => 0
  | .leastRecent _ _ inner | .firstIn _ _ inner | .scheduled _ inner _ | .copying inner
  | .counting _ _ inner => inner.depth + 1

def clear : Cache κ α → Cache κ α
  | .store id _ => .store id []
  | .leastRecent capacity _ inner => .leastRecent capacity [] inner.clear
  | .firstIn capacity _ inner => .firstIn capacity [] inner.clear
  | .scheduled interval inner ages => .scheduled interval inner.clear ages
  | .copying inner => .copying inner.clear
  | .counting requests hits inner => .counting requests hits inner.clear

theorem depth_clear (c : Cache κ α) : c.clear.depth = c.depth := by
  induction c <;> simp_all [clear, depth]

variable [BEq κ]

/-- Puts a key that is there behind all others. -/
def promote (keys : List κ) (key : κ) : List κ :=
  if keys.contains key then keys.erase key ++ [key] else keys

def remove : Cache κ α → κ → Option α × Cache κ α
  | .store id entries, key => (Keyed.get? entries key, .store id (Keyed.erase entries key))
  | .leastRecent capacity keys inner, key =>
    let (value, inner) := inner.remove key
    (value, .leastRecent capacity (keys.erase key) inner)
  | .firstIn capacity keys inner, key =>
    let (value, inner) := inner.remove key
    (value, .firstIn capacity (keys.filter (!· == key)) inner)
  | .scheduled interval inner ages, key =>
    if isStale interval ages then (none, .scheduled interval inner.clear ages.tail)
    else
      let (value, inner) := inner.remove key
      (value, .scheduled interval inner ages.tail)
  | .copying inner, key =>
    let (value, inner) := inner.remove key
    (value, .copying inner)
  | .counting requests hits inner, key =>
    let (value, inner) := inner.remove key
    (value, .counting requests hits inner)

theorem depth_remove (c : Cache κ α) (key : κ) : (c.remove key).2.depth = c.depth := by
  induction c with
  | scheduled interval inner ages ih =>
    simp only [remove]
    split
    · simp [depth, depth_clear]
    · simp [depth, ih]
  | _ => simp_all [remove, depth]

def get : Cache κ α → κ → Option α × Cache κ α
  | .store id entries, key => (Keyed.get? entries key, .store id entries)
  | .leastRecent capacity keys inner, key =>
    let (value, inner) := inner.get key
    (value, .leastRecent capacity (promote keys key) inner)
  | .firstIn capacity keys inner, key =>
    let (value, inner) := inner.get key
    (value, .firstIn capacity keys inner)
  | .scheduled interval inner ages, key =>
    if isStale interval ages then (none, .scheduled interval inner.clear ages.tail)
    else
      let (value, inner) := inner.get key
      (value, .scheduled interval inner ages.tail)
  | .copying inner, key =>
    let (value, inner) := inner.get key
    (value, .copying inner)
  | .counting requests hits inner, key =>
    let (value, inner) := inner.get key
    (value, .counting (requests + 1) (if value.isSome then hits + 1 else hits) inner)

def put : Cache κ α → κ → α → Cache κ α
  | .store id entries, key, value => .store id (Keyed.put entries key value)
  | .leastRecent capacity keys inner, key, value =>
    let inner := inner.put key value
    if keys.contains key then .leastRecent capacity (promote keys key) inner
    else
      match keys with
      | eldest :: rest =>
        if keys.length < capacity then .leastRecent capacity (keys ++ [key]) inner
        else .leastRecent capacity (rest ++ [key]) (inner.remove eldest).2
      | [] => .leastRecent capacity [key] inner
  | .firstIn capacity keys inner, key, value =>
    if keys.contains key then .firstIn capacity keys (inner.put key value)
    else
      match keys with
      | eldest :: rest =>
        if keys.length < capacity then .firstIn capacity (keys ++ [key]) (inner.put key value)
        else .firstIn capacity (rest ++ [key]) ((inner.remove eldest).2.put key value)
      | [] => .firstIn capacity [key] (inner.put key value)
  | .scheduled interval inner ages, key, value =>
    .scheduled interval
      (if isStale interval ages then inner.clear.put key value else inner.put key value) ages.tail
  | .copying inner, key, value => .copying (inner.put key value)
  | .counting requests hits inner, key, value => .counting requests hits (inner.put key value)
termination_by c => c.depth
decreasing_by all_goals simp only [depth, depth_clear, depth_remove]; omega

end Cache

end MappedSql
