import MappedSql.Template.Loop
import MappedSql.Template.Trim
import MappedSql.Text.Pattern.Reader

/-!
# Template nodes

A template is a tree. Its leaves are literal text, which may hold placeholders, and text
with substitutions between `${` and `}`, which are replaced by the texts of values when the
template is rendered. Inner nodes decide what is rendered, and how.
-/

namespace MappedSql.Template

structure Filter where
  text : String
  pattern : Text.Pattern

namespace Filter

def ofText (filter : String) : Except Error Filter :=
  let text := "^(?:" ++ filter ++ ")$"
  match Text.Pattern.ofText? text with
  | some pattern => .ok { text, pattern }
  | none => .error (.configuration (.invalidFilter filter))

def check (f : Filter) (text : String) : Except Error String :=
  if f.pattern.occursIn text then .ok text else .error (.validation f.text)

end Filter

inductive Node
  | literal (text : String)
  | substituted (text : String) (filter : Option Filter)
  | sequence (nodes : List Node)
  | when (test : String) (body : Node)
  | choose (cases : List (String × Node)) (otherwise : Option Node)
  | trim (t : Trim) (body : Node)
  | loop (l : Loop) (body : Node)
  | bind (name expression : String)

namespace Node

def substitutions : Text.Delimiters where
  opening := ['$', '\x7b']
  closing := ['\x7d']

def ofText (text : String) (filter : Option Filter := none) : Node :=
  if substitutions.hasSpans text then .substituted text filter else .literal text

def filteredText (text filter : String) : Except Error Node :=
  (Filter.ofText filter).map fun f => ofText text f

mutual
def isDynamic : Node → Bool
  | .literal _ => false
  | .sequence nodes => anyDynamic nodes
  | _ => true
def anyDynamic : List Node → Bool
  | [] => false
  | node :: rest => isDynamic node || anyDynamic rest
end

/-! ### Rendering -/

def substitute (value : Argument) : String :=
  if value.isNull then ""
  else
    match value with
    | .value v => v.display
    | value => value.toJson.text

def bindValue : Rendering Unit := do
  let parameter := (← get).parameter
  if parameter.isNull then Rendering.bind "value" .null
  else if parameter.isSimple then Rendering.bind "value" parameter

/-- The text for the expression of a substitution. One that cannot be evaluated counts as
null. -/
def substitution (b : Bindings) (filter : Option Filter) (expression : String) :
    Except Error String :=
  let value := match Expression.evaluate b expression with
    | .ok value => value
    | .error _ => .null
  match filter with
  | none => .ok (substitute value)
  | some f => f.check (substitute value)

def renderText (text : String) (filter : Option Filter) : Rendering Unit := do
  bindValue
  match substitutions.replaceM (substitution (← get).bindings filter) text with
  | .ok text => Rendering.append text
  | .error e => throw e

mutual
/-- Renders a node. The result says whether the node applied: a test that fails does not,
nor does a choice without a case. -/
def render : Node → Rendering Bool
  | .literal text => do
    Rendering.append text
    return true
  | .substituted text filter => do
    renderText text filter
    return true
  | .sequence nodes => do
    renderAll nodes
    return true
  | .when test body => do
    if ← Rendering.holds test then
      let _ ← render body
      return true
    else return false
  | .choose cases none => renderFirst cases (pure false)
  | .choose cases (some node) => renderFirst cases (render node)
  | .trim t body => t.around (render body)
  | .loop l body => do
    l.expand (render body)
    return true
  | .bind name expression => do
    Rendering.bind name (← Rendering.evaluate expression)
    return true
def renderAll : List Node → Rendering Unit
  | [] => return
  | node :: rest => do
    let _ ← render node
    renderAll rest
def renderFirst : List (String × Node) → Rendering Bool → Rendering Bool
  | [], otherwise => otherwise
  | (test, node) :: rest, otherwise => do
    if ← Rendering.holds test then render node
    else renderFirst rest otherwise
end

end Node

end MappedSql.Template
