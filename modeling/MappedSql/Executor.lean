import MappedSql.Cache.Overlay
import MappedSql.Executor.Worker

/-!
# Executors

An executor is a worker, with or without overlays on the namespace caches. With them, the
results of a statement that has a cache are looked for there, and a result that comes from
the database is put there when the transaction commits.
-/

namespace MappedSql

/-- What all sessions share: the database with the journal of keys, and the caches. -/
structure World (σ : Type) extends Channel σ where
  caches : Caches := {}

structure Executor (σ : Type) where
  worker : Worker σ
  overlays : Option (Overlays CacheKey ResultSet) := none

abbrev Execute (σ : Type) := Action (Executor σ × World σ)

namespace Executor

variable {σ α : Type}

def caching (c : Configuration) (t : Transaction σ) (type : ExecutorType) : Executor σ where
  worker := .start c t type
  overlays := some []

def start (c : Configuration) (t : Transaction σ) (type : ExecutorType) : Executor σ :=
  if c.cachesEnabled then .caching c t type else { worker := .start c t type }

def isClosed (e : Executor σ) : Bool :=
  e.worker.isClosed

def onWorker (a : Work σ α) : Execute σ α :=
  a.within (fun (e, w) => (e.worker, w.toChannel))
    fun (worker, channel) (e, w) => ({ e with worker }, { w with toChannel := channel })

def changeOverlays
    (f : Overlays CacheKey ResultSet → Overlays CacheKey ResultSet) : Execute σ Unit :=
  modify fun (e, w) => ({ e with overlays := e.overlays.map f }, w)

/-- Hides what the cache of a statement holds, for a statement that flushes caches. -/
def flushCacheFor (s : Statement) : Execute σ Unit := do
  if let some r := s.cache then
    if s.flushesCache then changeOverlays (·.clear r)

def lookup (r : CacheRef) (key : CacheKey) : Execute σ (Option ResultSet) :=
  modifyGet fun (e, w) =>
    match e.overlays with
    | none => (none, e, w)
    | some overlays =>
      let (found, overlays, caches) := overlays.get w.caches r key
      (found, { e with overlays := some overlays }, { w with caches })

def publish : Execute σ Unit :=
  modify fun (e, w) =>
    match e.overlays with
    | none => (e, w)
    | some overlays =>
      let (overlays, caches) := overlays.commit w.caches
      ({ e with overlays := some overlays }, { w with caches })

def retract : Execute σ Unit :=
  changeOverlays (·.rollback)

def update (s : Statement) (argument : Argument) : Execute σ UpdateCount := do
  flushCacheFor s
  onWorker (Worker.update s argument)

def checkCacheable (s : Statement) (bound : BoundStatement) : Except Error Unit :=
  if s.kind = .callable && bound.parameters.any (·.mode != .input) then
    .error (.configuration (.cachedOutput s.id))
  else .ok ()

def cacheOf (s : Statement) : Execute σ (Option CacheRef) :=
  return if (← get).1.overlays.isSome then s.cache else none

/-- The result under a key, from a cache or else from the worker. -/
def queryBound (s : Statement) (bounds : RowBounds) (key : CacheKey) (bound : BoundStatement) :
    Execute σ ResultSet := do
  match ← cacheOf s with
  | none => onWorker (Worker.queryBound s bounds key bound)
  | some r =>
    flushCacheFor s
    if s.usesCache then
      Action.ofExcept (checkCacheable s bound)
      match ← lookup r key with
      | some hit => return hit
      | none =>
        let rows ← onWorker (Worker.queryBound s bounds key bound)
        changeOverlays (·.put r key rows)
        return rows
    else onWorker (Worker.queryBound s bounds key bound)

def key (s : Statement) (bounds : RowBounds) (bound : BoundStatement) : Execute σ CacheKey :=
  onWorker (Worker.key s bounds bound)

def query (s : Statement) (argument : Argument) (bounds : RowBounds) : Execute σ ResultSet := do
  let bound ← Action.ofExcept (s.bound argument)
  let key ← key s bounds bound
  queryBound s bounds key bound

/-- The rows of a query up to the first that is enough, without any cache. -/
def handOut (s : Statement) (argument : Argument) (bounds : RowBounds)
    (enough : Nat → Row → Bool) : Execute σ (List (Nat × Row)) := do
  flushCacheFor s
  onWorker (Worker.handOut s argument bounds enough)

def flush : Execute σ (List BatchResult) :=
  onWorker Worker.flush

def commit (required : Bool) : Execute σ Unit := do
  onWorker (Worker.commit required)
  publish

/-- Rolls back. Where that is required, nothing is kept for the caches, whether or not it
succeeds. -/
def rollback (required : Bool) : Execute σ Unit := do
  let outcome ← (onWorker (Worker.rollback required)).attempt
  if required then retract
  Action.ofExcept outcome

def clearLocalCache : Execute σ Unit :=
  onWorker Worker.clearLocalCache

/-- Closes the executor. Unless a rollback is forced, what was kept for the caches is
published. -/
def close (force : Bool) : Execute σ Unit := do
  if force then retract else publish
  onWorker (Worker.close force)

end Executor

end MappedSql
