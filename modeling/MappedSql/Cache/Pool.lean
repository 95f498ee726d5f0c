import MappedSql.Cache

/-!
# Shared caches

All namespace caches live in one pool and are referred to by their places in it, so that
two caches with one id are still two caches.
-/

namespace MappedSql

structure CacheRef where
  id : String
  index : Nat
  deriving DecidableEq, Repr

structure CachePool (κ α : Type) where
  caches : List (Cache κ α) := []
  deriving Repr

namespace CachePool

variable {κ α : Type}

def add (p : CachePool κ α) (c : Cache κ α) : CacheRef × CachePool κ α :=
  ({ id := c.id, index := p.caches.length }, { caches := p.caches ++ [c] })

def cache? (p : CachePool κ α) (r : CacheRef) : Option (Cache κ α) :=
  p.caches[r.index]?

def modify (p : CachePool κ α) (r : CacheRef) (change : Cache κ α → Cache κ α) :
    CachePool κ α where
  caches := p.caches.modify r.index change

def clear (p : CachePool κ α) (r : CacheRef) : CachePool κ α :=
  p.modify r Cache.clear

variable [BEq κ]

/-- Looks a key up. Even a lookup may change a cache. -/
def get (p : CachePool κ α) (r : CacheRef) (key : κ) : Option α × CachePool κ α :=
  ((p.cache? r).bind fun c => (c.get key).1, p.modify r fun c => (c.get key).2)

def put (p : CachePool κ α) (r : CacheRef) (key : κ) (value : α) : CachePool κ α :=
  p.modify r fun c => c.put key value

def remove (p : CachePool κ α) (r : CacheRef) (key : κ) : Option α × CachePool κ α :=
  ((p.cache? r).bind fun c => (c.remove key).1, p.modify r fun c => (c.remove key).2)

end CachePool

end MappedSql
