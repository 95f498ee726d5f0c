import MappedSql.Cache.Pool

/-!
# Transactions on caches

A transaction does not touch a shared cache before it commits. Until then an overlay holds
what the transaction put into the cache and removed from it, and whether it cleared it. A
lookup goes through the overlay to what it leaves visible of the shared cache.

`Overlays` are the overlays of one transaction, one for each cache id.
-/

namespace MappedSql

structure Overlay (κ α : Type) where
  target : CacheRef
  /-- The shared cache is hidden, and is cleared first when the transaction commits. -/
  clears : Bool := false
  writes : Keyed κ α := []
  removals : List κ := []
  /-- The keys that a lookup did not find in the shared cache. -/
  missed : List κ := []
  deriving Repr

namespace Overlay

variable {κ α : Type}

def reset (o : Overlay κ α) : Overlay κ α where
  target := o.target

def clear (o : Overlay κ α) : Overlay κ α :=
  { o with clears := true, writes := [], removals := [] }

variable [BEq κ]

def note (keys : List κ) (key : κ) : List κ :=
  if keys.contains key then keys else keys ++ [key]

/-- What the shared cache holds under a key, where the overlay does not hide it. -/
def visible (o : Overlay κ α) (p : CachePool κ α) (key : κ) : Option α × CachePool κ α :=
  if o.clears then (none, p) else p.get o.target key

def get (o : Overlay κ α) (p : CachePool κ α) (key : κ) :
    Option α × Overlay κ α × CachePool κ α :=
  if o.removals.contains key then (none, o, p)
  else
    match Keyed.get? o.writes key with
    | some value => (some value, o, p)
    | none =>
      let (found, p) := o.visible p key
      (found, if found.isNone then { o with missed := note o.missed key } else o, p)

def put (o : Overlay κ α) (key : κ) (value : α) : Overlay κ α :=
  { o with removals := o.removals.filter (!· == key), writes := Keyed.put o.writes key value }

def remove (o : Overlay κ α) (key : κ) : Overlay κ α :=
  { o with writes := Keyed.erase o.writes key, removals := note o.removals key }

/-- A cache after the changes of a transaction: it is cleared, then keys are removed, then
values are put. -/
def applyTo (o : Overlay κ α) (c : Cache κ α) : Cache κ α :=
  let c := if o.clears then c.clear else c
  let c := o.removals.foldl (fun c key => (c.remove key).2) c
  o.writes.foldl (fun c (key, value) => c.put key value) c

def commit (o : Overlay κ α) (p : CachePool κ α) : Overlay κ α × CachePool κ α :=
  (o.reset, p.modify o.target o.applyTo)

end Overlay

abbrev Overlays (κ α : Type) := Keyed String (Overlay κ α)

namespace Overlays

variable {κ α : Type}

/-- The overlay of a cache. The cache that was used first under an id stays the one for it. -/
def overlay (os : Overlays κ α) (r : CacheRef) : Overlay κ α :=
  (Keyed.get? os r.id).getD { target := r }

def clear (os : Overlays κ α) (r : CacheRef) : Overlays κ α :=
  Keyed.put os r.id (os.overlay r).clear

def rollback (os : Overlays κ α) : Overlays κ α :=
  os.map fun (id, o) => (id, o.reset)

variable [BEq κ]

def get (os : Overlays κ α) (p : CachePool κ α) (r : CacheRef) (key : κ) :
    Option α × Overlays κ α × CachePool κ α :=
  let (found, o, p) := (os.overlay r).get p key
  (found, Keyed.put os r.id o, p)

def put (os : Overlays κ α) (r : CacheRef) (key : κ) (value : α) : Overlays κ α :=
  Keyed.put os r.id ((os.overlay r).put key value)

def remove (os : Overlays κ α) (r : CacheRef) (key : κ) : Overlays κ α :=
  Keyed.put os r.id ((os.overlay r).remove key)

def commit (os : Overlays κ α) (p : CachePool κ α) : Overlays κ α × CachePool κ α :=
  (os.rollback, os.foldl (fun p (_, o) => (o.commit p).2) p)

end Overlays

end MappedSql
