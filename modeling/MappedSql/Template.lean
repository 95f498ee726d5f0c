import MappedSql.Bound
import MappedSql.Template.Node

/-!
# Templates

A template whose rendering cannot depend on the argument is compiled once, against the
declared type of the argument. Any other is rendered and compiled for each argument, with
everything that was bound on the way at hand for its placeholders.
-/

namespace MappedSql

inductive Template
  | compiled (sql : PositionalSql)
  | dynamic (root : Template.Node) (handlers : HandlerRegistry) (databaseId : Option String)

namespace Template

def rendered (root : Node) (argument : Argument) (databaseId : Option String) :
    Except Error (String × Bindings) :=
  match root.render.outcome (Context.start argument databaseId) with
  | (.ok _, c) => .ok (c.sql, c.bindings)
  | (.error e, _) => .error e

def ofNode (handlers : HandlerRegistry) (databaseId : Option String) (root : Node)
    (argumentType : ValueType) : Except Error Template := do
  if root.isDynamic then return .dynamic root handlers databaseId
  else
    let (sql, _) ← rendered root .null databaseId
    return .compiled (← Resolver.compile { handlers, argumentType, bindings := [] } sql)

def ofSql (handlers : HandlerRegistry) (databaseId : Option String) (sql : String)
    (argumentType : ValueType) : Except Error Template :=
  ofNode handlers databaseId (Node.ofText sql) argumentType

def isDynamic : Template → Bool
  | .compiled _ => false
  | .dynamic .. => true

def bound (t : Template) (argument : Argument) : Except Error BoundStatement := do
  match t with
  | .compiled sql => return { sql := sql.sql, parameters := sql.parameters, argument }
  | .dynamic root handlers databaseId =>
    let (text, bindings) ← rendered root argument databaseId
    let resolver : Resolver := { handlers, argumentType := argument.type, bindings }
    let sql ← resolver.compile text
    return { sql := sql.sql, parameters := sql.parameters, additional := bindings, argument }

end Template

end MappedSql
