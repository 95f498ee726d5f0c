import MappedSql.Cache.Options
import MappedSql.Json.Record

/-!
# Settings

Settings are what a configuration starts from, and are read from JSON text. Every part has
a default.
-/

namespace MappedSql

/-- How statements are sent to the driver: each prepared, run and closed at once; with
statements kept open for further use; or with updates collected and sent in batches. -/
inductive ExecutorType
  | simple
  | reuse
  | batch
  deriving DecidableEq, Repr, Inhabited

instance : Choice ExecutorType where
  all := [.simple, .reuse, .batch]
  name
    | .simple => "simple"
    | .reuse => "reuse"
    | .batch => "batch"

/-- How long a session remembers the results of its own queries: as long as nothing changes,
or not beyond the query. -/
inductive LocalCacheScope
  | session
  | statement
  deriving DecidableEq, Repr, Inhabited

instance : Choice LocalCacheScope where
  all := [.session, .statement]
  name
    | .session => "session"
    | .statement => "statement"

structure Settings where
  cachesEnabled : Bool := true
  executorType : ExecutorType := .simple
  localCacheScope : LocalCacheScope := .session
  /-- The timeout of statements that have none of their own, in seconds. -/
  statementTimeout : Option Nat := none
  environmentId : Option String := none
  databaseId : Option String := none
  caches : Entries CacheOptions := []
  deriving DecidableEq, Repr, Inhabited

open Document in
def CacheOptions.ofDocument? (d : Document) : Option CacheOptions := do
  let standard : CacheOptions := {}
  match ← d.fields? ["eviction", "size", "flush_interval_ms", "read_only"] with
  | [eviction, size, flushInterval, readOnly] =>
    return {
      eviction := ← field? choice? standard.eviction eviction
      size := ← field? unsigned? standard.size size
      flushInterval := ← field? (optional? unsigned?) standard.flushInterval flushInterval
      readOnly := ← field? boolean? standard.readOnly readOnly }
  | _ => none

namespace Settings

open Document in
def ofDocument? (d : Document) : Option Settings := do
  let standard : Settings := {}
  let fields ← d.fields?
    ["cache_enabled", "default_executor_type", "local_cache_scope",
     "default_statement_timeout_secs", "environment_id", "database_id", "caches"]
  match fields with
  | [cachesEnabled, executorType, localCacheScope, statementTimeout, environmentId, databaseId,
     caches] =>
    return {
      cachesEnabled := ← field? boolean? standard.cachesEnabled cachesEnabled
      executorType := ← field? choice? standard.executorType executorType
      localCacheScope := ← field? choice? standard.localCacheScope localCacheScope
      statementTimeout :=
        ← field? (optional? unsigned?) standard.statementTimeout statementTimeout
      environmentId := ← field? (optional? string?) standard.environmentId environmentId
      databaseId := ← field? (optional? string?) standard.databaseId databaseId
      caches := ← field? (entries? CacheOptions.ofDocument?) standard.caches caches }
  | _ => none

def ofText (text : String) : Except Error Settings :=
  match (Document.ofText? text).bind ofDocument? with
  | some settings => .ok settings
  | none => .error (.configuration .invalidSettings)

end Settings

end MappedSql
