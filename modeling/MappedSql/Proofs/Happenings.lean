import MappedSql.Proofs.Renderings

/-!
# What happens in a rendering

An account of rendering a template: how its tests came out and how large its collections were,
what was bound and freed again, and which placeholders were put into the text. The account
knows of every placeholder in which turns of which loops its text was appended, which the text
itself does not tell. It is an account of renderings that succeed, of templates without
substitutions.
-/

namespace MappedSql.Template

structure Turn where
  loop : Loop
  number : Nat
  key : Argument
  element : Argument

/-- A placeholder as it is written in a template, with the turns of loops that its text was
appended in, from the innermost to the outermost. -/
structure Placed where
  content : String
  turns : List Turn := []

inductive Happening
  | tested (holds : Bool)
  /-- A loop met a collection: null, or with so many elements. -/
  | collected (size : Option Nat)
  | bound (name : String) (value : Argument)
  | freed (name : String)
  | placed (p : Placed)

namespace Happening

def within (t : Turn) : Happening → Happening
  | .placed p => .placed { p with turns := p.turns ++ [t] }
  | h => h

def test? : Happening → Option Bool
  | .tested holds => some holds
  | _ => none

def size? : Happening → Option (Option Nat)
  | .collected size => some size
  | _ => none

def placed? : Happening → Option Placed
  | .placed p => some p
  | _ => none

@[simp] theorem test?_within (t : Turn) (h : Happening) : (h.within t).test? = h.test? := by
  cases h <;> rfl

@[simp] theorem size?_within (t : Turn) (h : Happening) : (h.within t).size? = h.size? := by
  cases h <;> rfl

end Happening

/-- An account of what happens from a context on. -/
abbrev Account := Context → List Happening

def after {α : Type} (a : Rendering α) (next : α → Account) : Account := fun c =>
  match a.outcome c with
  | (.ok value, c') => next value c'
  | (.error _, _) => []

theorem after_of_ok {α : Type} {a : Rendering α} {c c' : Context} {value : α}
    (h : a.outcome c = (.ok value, c')) (next : α → Account) : after a next c = next value c' := by
  rw [after, h]

def placements (text : String) : List Happening :=
  (Placeholder.delimiters.contents text).map fun content => .placed { content }

def placementsOf (texts : List String) : List Happening :=
  texts.flatMap placements

namespace Trim

variable {α : Type}

/-- The texts around a part are only there when the part leaves a text. -/
def framing (t : Trim) (part : Rendering α) (text : Option String) : Account :=
  after (Rendering.capture part) fun captured _ =>
    if (t.apply captured.2).isEmpty then [] else placementsOf text.toList

def account (t : Trim) (part : Rendering α) (told : Account) : Account := fun c =>
  t.framing part t.opening c ++ told c ++ t.framing part t.closing c

theorem framing_ok {t : Trim} {part : Rendering α} {value : α} {c c' : Context} {text : String}
    (hpart : part.outcome c = (.ok value, c'))
    (htext : text = t.apply (Context.join (c'.fragments.drop c.fragments.length)))
    (frame : Option String) :
    t.framing part frame c = placementsOf (if text.isEmpty then [] else frame.toList) := by
  rw [framing, after_of_ok (Rendering.capture_ok.mpr ⟨c', hpart, rfl, rfl⟩)]
  dsimp only
  rw [← htext]
  cases text.isEmpty <;> rfl

end Trim

namespace Loop

variable {α : Type}

def bindings (n : Nat) (name : Option String) (value : Argument) : List Happening :=
  name.toList.flatMap fun name => [.bound (elementName name n) value, .bound name value]

/-- A body that leaves a text has a separator before it, unless none has left one before. -/
def separation (l : Loop) (body : Rendering α) (first : Bool) (n : Nat) : Account :=
  after (Rendering.capture body) fun captured _ =>
    if first || Text.allBlank (l.bodyFor n captured.2).toList then []
    else placementsOf l.separator.toList

def turnAccount (l : Loop) (body : Rendering α) (told : Account) (first : Bool)
    (key element : Argument) : Account := fun c =>
  let entered := l.entered key element c
  bindings c.counter l.index key ++ bindings c.counter l.item element ++
    l.separation body first c.counter entered ++
    (told entered).map (Happening.within ⟨l, c.counter, key, element⟩)

theorem turnAccount_ok {l : Loop} {body : Rendering α} (told : Account) {first : Bool}
    {key element : Argument} {value : α} {text : String} {c c' : Context}
    (hbody : body.outcome (l.entered key element c) = (.ok value, c'))
    (htext : text = l.bodyFor c.counter (Context.join (c'.fragments.drop c.fragments.length))) :
    l.turnAccount body told first key element c =
      bindings c.counter l.index key ++ bindings c.counter l.item element ++
        placementsOf (if first || Text.allBlank text.toList then [] else l.separator.toList) ++
        (told (l.entered key element c)).map (Happening.within ⟨l, c.counter, key, element⟩) := by
  rw [turnAccount, separation, after_of_ok (Rendering.capture_ok.mpr ⟨c', hbody, rfl, rfl⟩)]
  dsimp only
  rw [fragments_entered, ← htext]
  cases first || Text.allBlank text.toList <;> rfl

def turnsAccount (l : Loop) (body : Rendering α) (told : Account) (first : Bool) :
    List (Argument × Argument) → Account
  | [], _ => []
  | (key, element) :: rest, c =>
    l.turnAccount body told first key element c ++
      after (l.turn body first key element) (fun first => l.turnsAccount body told first rest) c

def sizeOf (collection : Argument) : Option Nat :=
  if collection.isNull then none else collection.elements?.map List.length

def account (l : Loop) (body : Rendering α) (told : Account) : Account := fun c =>
  after (Rendering.evaluate l.collection)
    (fun collection _ => [.collected (sizeOf collection)]) c ++
  after l.elements (fun elements c =>
    if elements.isEmpty then []
    else
      placementsOf l.opening.toList ++
      l.turnsAccount body told true elements (c.appendAll l.opening.toList) ++
      placementsOf l.closing.toList ++ (l.item.toList ++ l.index.toList).map .freed) c

end Loop

namespace Node

mutual
def account : Node → Account
  | .literal text, _ => placements text
  | .substituted .., _ => []
  | .sequence nodes, c => accountOfAll nodes c
  | .when test body, c =>
    after (Rendering.holds test)
      (fun holds c => .tested holds :: if holds then account body c else []) c
  | .choose cases none, c => accountOfFirst cases (fun _ => []) c
  | .choose cases (some node), c => accountOfFirst cases (account node) c
  | .trim t body, c => t.account body.render (account body) c
  | .loop l body, c => l.account body.render (account body) c
  | .bind name expression, c =>
    after (Rendering.evaluate expression) (fun value _ => [.bound name value]) c
def accountOfAll : List Node → Account
  | [], _ => []
  | node :: rest, c => account node c ++ after node.render (fun _ => accountOfAll rest) c
def accountOfFirst : List (String × Node) → Account → Account
  | [], otherwise, c => otherwise c
  | (test, node) :: rest, otherwise, c =>
    after (Rendering.holds test) (fun holds c =>
      .tested holds :: if holds then account node c else accountOfFirst rest otherwise c) c
end

mutual
def isFixed : Node → Bool
  | .literal _ | .bind _ _ => true
  | .substituted .. => false
  | .sequence nodes => allFixed nodes
  | .when _ body | .trim _ body | .loop _ body => isFixed body
  | .choose cases none => casesFixed cases
  | .choose cases (some node) => casesFixed cases && isFixed node
def allFixed : List Node → Bool
  | [] => true
  | node :: rest => isFixed node && allFixed rest
def casesFixed : List (String × Node) → Bool
  | [] => true
  | (_, node) :: rest => isFixed node && casesFixed rest
end

end Node

end MappedSql.Template
