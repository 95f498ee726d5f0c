import MappedSql.Cache.Key
import MappedSql.Settings
import MappedSql.Statement

/-!
# Configurations

A configuration is what sessions have in common: the settings, the type handlers, the
namespace caches by id and the mapped statements by id.
-/

namespace MappedSql

abbrev Caches := CachePool CacheKey ResultSet

structure Configuration where
  environmentId : Option String := none
  databaseId : Option String := none
  cachesEnabled : Bool := true
  executorType : ExecutorType := .simple
  localCacheScope : LocalCacheScope := .session
  statementTimeout : Option Timeout := none
  handlers : HandlerRegistry := .standard
  caches : Keyed String CacheRef := []
  statements : Keyed String Statement := []

namespace Configuration

def addCache (c : Configuration) (r : CacheRef) : Configuration :=
  { c with caches := Keyed.put c.caches r.id r }

def buildCache (c : Configuration) (pool : Caches) (id : String) (options : CacheOptions)
    (ages : List Nat := []) : Except Error (Configuration × Caches) := do
  let (r, pool) := pool.add (← options.build id ages)
  return (c.addCache r, pool)

def ofSettings (s : Settings) (handlers : HandlerRegistry) (pool : Caches)
    (ages : String → List Nat := fun _ => []) : Except Error (Configuration × Caches) :=
  let c : Configuration :=
    { environmentId := s.environmentId
      databaseId := s.databaseId
      cachesEnabled := s.cachesEnabled
      executorType := s.executorType
      localCacheScope := s.localCacheScope
      statementTimeout := s.statementTimeout.map (· * 1000)
      handlers }
  s.caches.foldlM (fun (c, pool) (id, options) => c.buildCache pool id options (ages id)) (c, pool)

def cache (c : Configuration) (id : String) : Except Error CacheRef :=
  match Keyed.get? c.caches id with
  | some r => .ok r
  | none => .error (.configuration (.unknownCache id))

def cachesIn (c : Configuration) (pool : Caches) :
    Keyed String (Cache CacheKey ResultSet) :=
  c.caches.filterMap fun (id, r) => (pool.cache? r).map (id, ·)

def template (c : Configuration) (root : Template.Node) (argumentType : ValueType) :
    Except Error Template :=
  Template.ofNode c.handlers c.databaseId root argumentType

def addStatement (c : Configuration) (s : Statement) : Except Error Configuration :=
  if Keyed.contains c.statements s.id then .error (.configuration (.duplicateStatement s.id))
  else .ok { c with statements := Keyed.put c.statements s.id s }

def statement (c : Configuration) (id : String) : Except Error Statement :=
  match Keyed.get? c.statements id with
  | some s => .ok s
  | none => .error (.configuration (.unknownStatement id))

end Configuration

end MappedSql
