import MappedSql.Action
import MappedSql.Expression

/-!
# Rendering

A template is rendered step by step. The context of a rendering holds what is bound, the
fragments of SQL that are there so far, and the number that the next element of a loop
gets. A step that fails keeps what was done before it.
-/

namespace MappedSql.Template

structure Context where
  bindings : Bindings
  fragments : List String := []
  counter : Nat := 0

namespace Context

def start (argument : Argument) (databaseId : Option String) : Context where
  bindings := Entries.ofList
    [(Scope.parameterName, argument),
     (Scope.databaseIdName, (databaseId.map Argument.ofText).getD .null)]

def parameter (c : Context) : Argument :=
  (Entries.get? c.bindings Scope.parameterName).getD .null

def bind (c : Context) (name : String) (value : Argument) : Context :=
  { c with bindings := Entries.put name value c.bindings }

def unbind (c : Context) (name : String) : Context :=
  { c with bindings := Entries.erase c.bindings name }

def append (c : Context) (fragment : String) : Context :=
  { c with fragments := c.fragments ++ [fragment] }

def join (fragments : List String) : String :=
  String.intercalate " " fragments

def sql (c : Context) : String :=
  join c.fragments

end Context

abbrev Rendering := Action Context

namespace Rendering

def bind (name : String) (value : Argument) : Rendering Unit :=
  modify (·.bind name value)

def unbind (name : String) : Rendering Unit :=
  modify (·.unbind name)

def append (fragment : String) : Rendering Unit :=
  modify (·.append fragment)

def fresh : Rendering Nat :=
  modifyGet fun c => (c.counter, { c with counter := c.counter + 1 })

/-- Does a step and takes back the text that it appended. -/
def capture {α : Type} (step : Rendering α) : Rendering (α × String) := do
  let mark := (← get).fragments.length
  let result ← step
  let c ← get
  set { c with fragments := c.fragments.take mark }
  return (result, Context.join (c.fragments.drop mark))

def evaluate (expression : String) : Rendering Argument := do
  match Expression.evaluate (← get).bindings expression with
  | .ok value => return value
  | .error fault => throw (.configuration (.invalidExpression expression fault))

def holds (test : String) : Rendering Bool :=
  return (← evaluate test).isTruthy

end Rendering

end MappedSql.Template
