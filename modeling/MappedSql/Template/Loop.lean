import MappedSql.Placeholder.Resolve
import MappedSql.Template.Context

/-!
# Loops

A loop renders its body once for each element of a list or a map. The names of the loop are
bound to the element and to its position or key. Placeholders are resolved only when the
whole text is there, so in the text of a body they are given names that belong to this one
element, which stay bound.
-/

namespace MappedSql.Template

structure Loop where
  collection : String
  item : Option String := none
  index : Option String := none
  opening : Option String := none
  closing : Option String := none
  separator : Option String := none
  /-- A collection that is null counts as empty. -/
  nullable : Bool := false
  deriving Repr

namespace Loop

def elementName (name : String) (n : Nat) : String :=
  "__frch_" ++ name ++ "_" ++ toString n

def endsName (c : Char) : Bool :=
  c == '.' || c == ',' || c == ':' || Text.isBlank c

def renamed? (name replacement content : String) : Option String := do
  let rest ← name.toList.isPrefixOf? (Text.trimStart content.toList)
  if rest.head?.all endsName then some (replacement ++ String.ofList rest) else none

def contentFor (loop : Loop) (n : Nat) (content : String) : String :=
  let renamedFrom (name : Option String) : Option String := do
    let name ← name
    renamed? name (elementName name n) content
  ((renamedFrom loop.item).or (renamedFrom loop.index)).getD content

def bodyFor (loop : Loop) (n : Nat) (body : String) : String :=
  Placeholder.delimiters.replace
    (fun content => Placeholder.ofContent (loop.contentFor n content)) body

def bindElement (n : Nat) (name : Option String) (value : Argument) : Rendering Unit := do
  if let some name := name then
    Rendering.bind (elementName name n) value
    Rendering.bind name value

def appendText (text : Option String) : Rendering Unit := do
  if let some text := text then Rendering.append text

def unbindName (name : Option String) : Rendering Unit := do
  if let some name := name then Rendering.unbind name

def elements (loop : Loop) : Rendering (List (Argument × Argument)) := do
  let collection ← Rendering.evaluate loop.collection
  if collection.isNull then
    if loop.nullable then return []
    else throw (.configuration (.nullCollection loop.collection))
  else
    match collection.elements? with
    | some elements => return elements
    | none => throw (.configuration (.notIterable loop.collection collection.type))

/-- Renders the body for each element. A body without text is skipped; a separator stands
before all others but the first. -/
def forEach {α : Type} (loop : Loop) (body : Rendering α) (first : Bool) :
    List (Argument × Argument) → Rendering Unit
  | [] => return
  | (key, element) :: rest => do
    let n ← Rendering.fresh
    bindElement n loop.index key
    bindElement n loop.item element
    let (_, text) ← Rendering.capture body
    let text := loop.bodyFor n text
    if Text.allBlank text.toList then
      loop.forEach body first rest
    else
      unless first do appendText loop.separator
      Rendering.append text
      loop.forEach body false rest

def expand {α : Type} (loop : Loop) (body : Rendering α) : Rendering Unit := do
  match ← loop.elements with
  | [] => return
  | elements =>
    appendText loop.opening
    loop.forEach body true elements
    appendText loop.closing
    unbindName loop.item
    unbindName loop.index

end Loop

end MappedSql.Template
