import MappedSql.Argument

/-!
# Names in scope

While a statement is put together, names are bound to arguments. The caller's argument is
itself bound, and what no binding names is looked for inside it.
-/

namespace MappedSql.Scope

def parameterName : String := "_parameter"

def databaseIdName : String := "_databaseId"

/-- What a path leads to: from the binding of its first name, where there is one, and else
from the caller's argument, unless that is a single value. -/
def lookup? (bindings : Bindings) (path : String) : Option Argument :=
  if Entries.contains bindings (Path.ofText path).head.name then
    Bindings.property? bindings path
  else do
    let parameter ← Entries.get? bindings parameterName
    if parameter.isSimple then none else parameter.property? path

end MappedSql.Scope
