import MappedSql.Cache
import MappedSql.Choice
import MappedSql.Error

/-!
# Cache options

What a namespace cache is like. Its layers are always in the same order: what bounds it is
next to the store, then come the clearing by time, the copying and the counting.
-/

namespace MappedSql

inductive EvictionPolicy
  | lru
  | fifo
  deriving DecidableEq, Repr, Inhabited

instance : Choice EvictionPolicy where
  all := [.lru, .fifo]
  name
    | .lru => "lru"
    | .fifo => "fifo"

structure CacheOptions where
  eviction : EvictionPolicy := .lru
  size : Nat := 1024
  /-- How old a cache may get before it is cleared, in milliseconds. -/
  flushInterval : Option Nat := none
  /-- Whether values are handed out without copying them. -/
  readOnly : Bool := false
  deriving DecidableEq, Repr, Inhabited

namespace CacheOptions

def bounded {κ α : Type} (o : CacheOptions) (inner : Cache κ α) : Cache κ α :=
  match o.eviction with
  | .lru => .leastRecent o.size [] inner
  | .fifo => .firstIn o.size [] inner

def layered {κ α : Type} (o : CacheOptions) (inner : Cache κ α) (ages : List Nat) : Cache κ α :=
  let inner := match o.flushInterval with
    | some interval => .scheduled interval inner ages
    | none => inner
  .counting 0 0 (if o.readOnly then inner else .copying inner)

/-- Builds a cache. Where it is cleared by time, `ages` tells how old it is at each use. -/
def build {κ α : Type} (o : CacheOptions) (id : String) (ages : List Nat := []) :
    Except Error (Cache κ α) :=
  if o.size = 0 then .error (.configuration (.emptyCache id))
  else .ok (o.layered (o.bounded (.store id [])) ages)

end CacheOptions

end MappedSql
