import MappedSql.Proofs.Placeholders
import MappedSql.Template

/-!
# Steps of a rendering

What the steps of a rendering do when they succeed: those that only read the context, the start
of a turn of a loop, and a part whose text is taken back. A turn is the step that a loop repeats.
-/

namespace MappedSql

theorem Action.outcome_bind_ok {σ α β : Type} {a : Action σ α} {f : α → Action σ β} {s s'' : σ}
    {b : β} : (a >>= f).outcome s = (.ok b, s'') ↔
      ∃ value s', a.outcome s = (.ok value, s') ∧ (f value).outcome s' = (.ok b, s'') := by
  rw [outcome_bind]
  rcases a.outcome s with ⟨e | value, s'⟩
  · simp
  · simp

namespace Expression

theorem evaluate_operand {expression : String} {t : Token} {b : Bindings} {value : Argument}
    (h : tokens expression = .ok [t]) (ht : t.operand? b = some value) :
    evaluate b expression = .ok value := by
  have hprimary : primaryPhrase b [t] = .ok (value, ⟨[], by simp⟩) := by
    cases t with
    | opening => cases ht
    | _ => simp only [primaryPhrase, ht]; rfl
  have hnot : notPhrase b [t] = .ok (value, ⟨[], by simp⟩) := by
    have hcomparison : comparisonPhrase b [t] = .ok (value, ⟨[], by simp⟩) := by
      rw [comparisonPhrase, hprimary]
      rfl
    cases t with
    | not => cases ht
    | _ => simpa only [notPhrase] using hcomparison
  have hand : andPhrase b [t] = .ok (value, ⟨[], by simp⟩) := by
    rw [andPhrase, hnot]
    simp only [bind, Except.bind, andTail]
    rfl
  rw [evaluate, h]
  simp only [bind, Except.bind, evaluateTokens, orPhrase, hand, orTail]
  rfl

theorem evaluate_path {expression path : String} (h : tokens expression = .ok [.path path])
    (b : Bindings) : evaluate b expression = .ok ((Scope.lookup? b path).getD .null) :=
  evaluate_operand h rfl

end Expression

namespace Template

/-- Appends texts, each as a fragment. -/
def Context.appendAll (c : Context) (texts : List String) : Context :=
  { c with fragments := c.fragments ++ texts }

variable {α : Type} {c c' : Context} {l : Loop}

namespace Rendering

theorem evaluate_ok {expression : String} {value : Argument} :
    (evaluate expression).outcome c = (.ok value, c') ↔
      Expression.evaluate c.bindings expression = .ok value ∧ c' = c := by
  rw [evaluate, Action.outcome_bind, Action.outcome_get]
  dsimp only
  split
  · rename_i heq
    simp [heq, eq_comm]
  · rename_i heq
    simp [heq]

theorem holds_ok {test : String} {holds : Bool} :
    (Rendering.holds test).outcome c = (.ok holds, c') ↔
      ∃ value, Expression.evaluate c.bindings test = .ok value ∧ value.isTruthy = holds ∧
        c' = c := by
  simp only [Rendering.holds, Action.outcome_bind_ok, evaluate_ok, Action.outcome_pure,
    Prod.mk.injEq, Except.ok.injEq]
  constructor
  · rintro ⟨value, _, ⟨hv, rfl⟩, hh, rfl⟩
    exact ⟨value, hv, hh, rfl⟩
  · rintro ⟨value, hv, hh, rfl⟩
    exact ⟨value, _, ⟨hv, rfl⟩, hh, rfl⟩

theorem capture_ok {step : Rendering α} {value : α} {text : String} :
    (capture step).outcome c = (.ok (value, text), c') ↔
      ∃ c₁, step.outcome c = (.ok value, c₁) ∧
        text = Context.join (c₁.fragments.drop c.fragments.length) ∧
        c' = { c₁ with fragments := c₁.fragments.take c.fragments.length } := by
  simp only [capture, Action.outcome_bind_ok, Action.outcome_get, Action.outcome_set,
    Action.outcome_pure, Prod.mk.injEq, Except.ok.injEq]
  constructor
  · rintro ⟨_, _, ⟨rfl, rfl⟩, _, c₁, hstep, _, _, ⟨rfl, rfl⟩, _, _, ⟨-, rfl⟩, ⟨rfl, rfl⟩, rfl⟩
    exact ⟨_, hstep, rfl, rfl⟩
  · rintro ⟨c₁, hstep, rfl, rfl⟩
    exact ⟨_, _, ⟨rfl, rfl⟩, value, c₁, hstep, _, _, ⟨rfl, rfl⟩, (), _, ⟨trivial, rfl⟩,
      ⟨rfl, rfl⟩, rfl⟩

end Rendering

namespace Loop

theorem elements_ok {elements : List (Argument × Argument)} :
    l.elements.outcome c = (.ok elements, c') ↔
      ∃ collection, Expression.evaluate c.bindings l.collection = .ok collection ∧
        (if collection.isNull then l.nullable ∧ elements = []
          else collection.elements? = some elements) ∧ c' = c := by
  simp only [Loop.elements, Action.outcome_bind_ok, Rendering.evaluate_ok]
  constructor
  · rintro ⟨collection, _, ⟨hc, rfl⟩, he⟩
    refine ⟨collection, hc, ?_⟩
    repeat' split at he
    all_goals simp_all
  · rintro ⟨collection, hc, he, rfl⟩
    refine ⟨collection, _, ⟨hc, rfl⟩, ?_⟩
    split at he <;> simp_all

def withElement (n : Nat) (name : Option String) (value : Argument) (c : Context) : Context :=
  match name with
  | none => c
  | some name => (c.bind (elementName name n) value).bind name value

/-- The context in which the body of a turn is rendered. The turn has the number that the
counter had. -/
def entered (l : Loop) (key element : Argument) (c : Context) : Context :=
  withElement c.counter l.item element
    (withElement c.counter l.index key { c with counter := c.counter + 1 })

def leave (l : Loop) (c : Context) : Context :=
  (l.item.toList ++ l.index.toList).foldl Context.unbind (c.appendAll l.closing.toList)

@[simp] theorem fragments_withElement (n : Nat) (name : Option String) (value : Argument)
    (c : Context) : (withElement n name value c).fragments = c.fragments := by
  cases name with
  | none => rfl
  | some name => rfl

@[simp] theorem counter_withElement (n : Nat) (name : Option String) (value : Argument)
    (c : Context) : (withElement n name value c).counter = c.counter := by
  cases name with
  | none => rfl
  | some name => rfl

@[simp] theorem fragments_entered (key element : Argument) (c : Context) :
    (l.entered key element c).fragments = c.fragments := by
  simp [entered]

@[simp] theorem counter_entered (key element : Argument) (c : Context) :
    (l.entered key element c).counter = c.counter + 1 := by
  simp [entered]

theorem outcome_bindElement (n : Nat) (name : Option String) (value : Argument) (c : Context) :
    (bindElement n name value).outcome c = (.ok (), withElement n name value c) := by
  cases name with
  | none => rfl
  | some name => rfl

theorem outcome_appendText (text : Option String) (c : Context) :
    (appendText text).outcome c = (.ok (), c.appendAll text.toList) := by
  cases text with
  | none => simp [appendText, Context.appendAll]
  | some text => rfl

theorem outcome_unbindName (name : Option String) (c : Context) :
    (unbindName name).outcome c = (.ok (), name.toList.foldl Context.unbind c) := by
  cases name with
  | none => rfl
  | some name => rfl

/-- Appends the text of a turn, unless it is blank, after a separator, unless no turn has left
text yet. Tells whether that is so still. -/
def keep (l : Loop) (first : Bool) (text : String) : Rendering Bool := do
  if Text.allBlank text.toList then return first
  else
    unless first do appendText l.separator
    Rendering.append text
    return false

def turn (l : Loop) (body : Rendering α) (first : Bool) (key element : Argument) :
    Rendering Bool := do
  let n ← Rendering.fresh
  bindElement n l.index key
  bindElement n l.item element
  let (_, text) ← Rendering.capture body
  l.keep first (l.bodyFor n text)

theorem forEach_cons (l : Loop) (body : Rendering α) (first : Bool) (key element : Argument)
    (rest : List (Argument × Argument)) :
    l.forEach body first ((key, element) :: rest) =
      l.turn body first key element >>= fun first => l.forEach body first rest := by
  simp only [forEach, turn, keep, bind_assoc]
  refine bind_congr fun n => bind_congr fun _ => bind_congr fun _ => bind_congr fun (_, text) => ?_
  split
  · simp
  · cases first <;> simp

def kept (l : Loop) (first : Bool) (text : String) : List String :=
  if Text.allBlank text.toList then []
  else (if first then [] else l.separator.toList) ++ [text]

theorem outcome_keep (first : Bool) (text : String) (c : Context) :
    (l.keep first text).outcome c =
      (.ok (first && Text.allBlank text.toList), c.appendAll (l.kept first text)) := by
  unfold keep kept
  cases hb : Text.allBlank text.toList with
  | true => simp [Context.appendAll]
  | false =>
    cases first with
    | true => rfl
    | false =>
      simp only [Bool.false_eq_true, if_false]
      rw [Action.outcome_bind, outcome_appendText]
      simp [Context.appendAll, Context.append, Rendering.append, Except.map]

theorem turn_ok {body : Rendering α} {first first' : Bool} {key element : Argument} :
    (l.turn body first key element).outcome c = (.ok first', c') ↔
      ∃ value c₁ text, body.outcome (l.entered key element c) = (.ok value, c₁) ∧
        text = l.bodyFor c.counter (Context.join (c₁.fragments.drop c.fragments.length)) ∧
        first' = (first && Text.allBlank text.toList) ∧
        c' = { c₁ with
          fragments := c₁.fragments.take c.fragments.length ++ l.kept first text } := by
  have henter : (l.turn body first key element).outcome c =
      (Rendering.capture body >>= fun (_, text) => l.keep first (l.bodyFor c.counter text)).outcome
        (l.entered key element c) := by
    rw [turn, Action.outcome_bind]
    change (bindElement c.counter l.index key >>= _).outcome _ = _
    rw [Action.outcome_bind, outcome_bindElement]
    dsimp only
    rw [Action.outcome_bind, outcome_bindElement]
    rfl
  rw [henter, Action.outcome_bind_ok]
  constructor
  · rintro ⟨⟨value, text⟩, c₂, hcapture, hrest⟩
    obtain ⟨c₁, hbody, rfl, rfl⟩ := Rendering.capture_ok.mp hcapture
    rw [outcome_keep] at hrest
    cases hrest
    exact ⟨value, c₁, _, hbody, by simp, rfl, by simp [Context.appendAll]⟩
  · rintro ⟨value, c₁, text, hbody, rfl, rfl, rfl⟩
    refine ⟨(value, _), _, Rendering.capture_ok.mpr ⟨c₁, hbody, rfl, rfl⟩, ?_⟩
    simp [outcome_keep, Context.appendAll]

theorem expand_ok {body : Rendering α} {u : Unit} :
    (l.expand body).outcome c = (.ok u, c') ↔
      ∃ elements, l.elements.outcome c = (.ok elements, c) ∧
        (elements = [] ∧ c' = c ∨
          elements ≠ [] ∧ ∃ c₁,
            (l.forEach body true elements).outcome (c.appendAll l.opening.toList) = (.ok (), c₁) ∧
              c' = l.leave c₁) := by
  have hleave : ∀ c : Context,
      (do appendText l.closing; unbindName l.item; unbindName l.index : Rendering Unit).outcome c =
        (.ok (), l.leave c) := by
    intro c
    rw [Action.outcome_bind, outcome_appendText]
    dsimp only
    rw [Action.outcome_bind, outcome_unbindName]
    dsimp only
    rw [outcome_unbindName, leave, List.foldl_append]
  have hsame : ∀ elements c₁, l.elements.outcome c = (.ok elements, c₁) → c₁ = c := by
    intro elements c₁ h
    obtain ⟨_, -, -, rfl⟩ := elements_ok.mp h
    rfl
  have hturns : ∀ elements : List (Argument × Argument),
      (do
        appendText l.opening
        l.forEach body true elements
        appendText l.closing
        unbindName l.item
        unbindName l.index : Rendering Unit).outcome c = (.ok u, c') ↔
      ∃ c₁, (l.forEach body true elements).outcome (c.appendAll l.opening.toList) = (.ok (), c₁) ∧
        c' = l.leave c₁ := by
    intro elements
    rw [Action.outcome_bind, outcome_appendText]
    dsimp only
    rw [Action.outcome_bind_ok]
    constructor
    · rintro ⟨_, c₁, hturns, hend⟩
      rw [hleave] at hend
      cases hend
      exact ⟨c₁, hturns, rfl⟩
    · rintro ⟨c₁, hturns, rfl⟩
      exact ⟨(), c₁, hturns, hleave c₁⟩
  rw [expand, Action.outcome_bind_ok]
  constructor
  · rintro ⟨elements, c₁, helements, hrest⟩
    obtain rfl := hsame _ _ helements
    refine ⟨elements, helements, ?_⟩
    cases elements with
    | nil =>
      cases hrest
      exact .inl ⟨rfl, rfl⟩
    | cons element rest => exact .inr ⟨List.cons_ne_nil _ _, (hturns _).mp hrest⟩
  · rintro ⟨elements, helements, ⟨rfl, rfl⟩ | ⟨hne, hrest⟩⟩
    · exact ⟨[], _, helements, rfl⟩
    · refine ⟨elements, c, helements, ?_⟩
      cases elements with
      | nil => exact absurd rfl hne
      | cons element rest => exact (hturns _).mpr hrest

end Loop

namespace Trim

theorem around_ok {t : Trim} {part : Rendering α} {value : α} :
    (t.around part).outcome c = (.ok value, c') ↔
      ∃ c₁ text, part.outcome c = (.ok value, c₁) ∧
        text = t.apply (Context.join (c₁.fragments.drop c.fragments.length)) ∧
        c' = { c₁ with
          fragments := c₁.fragments.take c.fragments.length ++
            if text.isEmpty then [] else [text] } := by
  have hkeep : ∀ (value : α) (text : String) (c : Context),
      (do
        unless text.isEmpty do Rendering.append text
        return value : Rendering α).outcome c =
          (.ok value, c.appendAll (if text.isEmpty then [] else [text])) := by
    intro value text c
    cases hempty : text.isEmpty with
    | true => simp [Context.appendAll]
    | false => rfl
  rw [around, Action.outcome_bind_ok]
  constructor
  · rintro ⟨⟨value', text⟩, c₂, hcapture, hrest⟩
    obtain ⟨c₁, hpart, rfl, rfl⟩ := Rendering.capture_ok.mp hcapture
    dsimp only at hrest
    rw [hkeep] at hrest
    cases hrest
    exact ⟨c₁, _, hpart, rfl, rfl⟩
  · rintro ⟨c₁, text, hpart, rfl, rfl⟩
    exact ⟨(value, _), _, Rendering.capture_ok.mpr ⟨c₁, hpart, rfl, rfl⟩, hkeep _ _ _⟩

end Trim

-- ---------------------------------------------------------------------------
-- Literal text
-- ---------------------------------------------------------------------------

namespace Node

mutual
def literals : Node → List String
  | .literal text => [text]
  | .sequence nodes => literalsOfAll nodes
  | _ => []
def literalsOfAll : List Node → List String
  | [] => []
  | node :: rest => literals node ++ literalsOfAll rest
end

def literalText (node : Node) : String :=
  Context.join node.literals

mutual
theorem outcome_literal (node : Node) (c : Context) (h : node.isDynamic = false) :
    node.render.outcome c = (.ok true, { c with fragments := c.fragments ++ node.literals }) := by
  cases node with
  | literal text => rfl
  | sequence nodes =>
    rw [render, Action.outcome_bind, outcome_literals nodes c h]
    rfl
  | _ => cases h

theorem outcome_literals (nodes : List Node) (c : Context) (h : anyDynamic nodes = false) :
    (renderAll nodes).outcome c =
      (.ok (), { c with fragments := c.fragments ++ literalsOfAll nodes }) := by
  cases nodes with
  | nil => simp [renderAll, literalsOfAll]
  | cons node rest =>
    obtain ⟨hnode, hrest⟩ := Bool.or_eq_false_iff.mp h
    rw [renderAll, Action.outcome_bind, outcome_literal node c hnode]
    simp only [outcome_literals rest _ hrest, literalsOfAll, List.append_assoc]
end

end Node

theorem rendered_literal {root : Node} (h : root.isDynamic = false) (argument : Argument)
    (databaseId : Option String) :
    rendered root argument databaseId =
      .ok (root.literalText, (Context.start argument databaseId).bindings) := by
  simp only [rendered, Node.outcome_literal root _ h]
  rfl

theorem get?_start (argument : Argument) (databaseId : Option String) {name : String}
    (h : name ∉ [Scope.parameterName, Scope.databaseIdName]) :
    Entries.get? (Context.start argument databaseId).bindings name = none := by
  obtain ⟨hparameter, hdatabaseId⟩ := not_or.mp (mt List.mem_pair.mpr h)
  simp only [Context.start, Entries.ofList, List.foldl_cons, List.foldl_nil]
  rw [Entries.get?_put_of_ne _ _ hdatabaseId, Entries.get?_put_of_ne _ _ hparameter]
  rfl

-- ---------------------------------------------------------------------------
-- Bound statements
-- ---------------------------------------------------------------------------

/-- What a template gives for an argument: the error in making it or in binding it, or else
the bound statement. -/
def boundFor (handlers : HandlerRegistry) (databaseId : Option String) (root : Node)
    (argumentType : ValueType) (argument : Argument) : Except Error BoundStatement := do
  (← ofNode handlers databaseId root argumentType).bound argument

theorem boundFor_dynamic {handlers : HandlerRegistry} {databaseId : Option String} {root : Node}
    {argumentType : ValueType} {argument : Argument} (h : root.isDynamic) :
    boundFor handlers databaseId root argumentType argument = (do
      let (text, bindings) ← rendered root argument databaseId
      let resolver : Resolver := { handlers, argumentType := argument.type, bindings }
      let sql ← resolver.compile text
      return { sql := sql.sql, parameters := sql.parameters, additional := bindings,
               argument }) := by
  simp only [boundFor, ofNode, h, if_true]
  rfl

/-- What the placeholders of a template are resolved with, when its rendering has bound
`bindings`. Literal text is compiled without them, against the declared type. -/
def resolverFor (handlers : HandlerRegistry) (root : Node) (argumentType : ValueType)
    (argument : Argument) (bindings : Bindings) : Resolver where
  handlers
  argumentType := if root.isDynamic then argument.type else argumentType
  bindings := if root.isDynamic then bindings else []

section
variable {handlers : HandlerRegistry} {databaseId : Option String} {root : Node}
  {argumentType : ValueType} {argument : Argument} {s : BoundStatement}

theorem boundFor_compiles
    (h : boundFor handlers databaseId root argumentType argument = .ok s) :
    ∃ text bindings, rendered root argument databaseId = .ok (text, bindings) ∧
      (resolverFor handlers root argumentType argument bindings).compile text =
        .ok ⟨s.sql, s.parameters⟩ ∧
      s.additional = (if root.isDynamic then bindings else []) ∧ s.argument = argument := by
  unfold resolverFor
  cases hroot : root.isDynamic with
  | true =>
    simp only [boundFor_dynamic hroot, bind_ok, pure_ok] at h
    obtain ⟨⟨text, bindings⟩, hrendered, sql, hcompile, rfl⟩ := h
    exact ⟨text, bindings, hrendered, hcompile, rfl, rfl⟩
  | false =>
    simp only [boundFor, bind_ok] at h
    obtain ⟨t, htemplate, hbound⟩ := h
    simp only [ofNode, hroot, Bool.false_eq_true, if_false, bind_ok, pure_ok,
      rendered_literal hroot, Except.ok.injEq] at htemplate
    obtain ⟨_, rfl, sql, hcompile, rfl⟩ := htemplate
    simp only [bound, pure_ok] at hbound
    subst hbound
    exact ⟨_, _, rendered_literal hroot argument databaseId, hcompile, rfl, rfl⟩

theorem boundFor_ok (h : boundFor handlers databaseId root argumentType argument = .ok s) :
    ∃ value c type,
      root.render.outcome (Context.start argument databaseId) = (.ok value, c) ∧
      Resolver.compile { handlers, argumentType := type, bindings := s.additional } c.sql =
        .ok ⟨s.sql, s.parameters⟩ ∧
      s.additional = (if root.isDynamic then c.bindings else []) ∧ s.argument = argument := by
  obtain ⟨text, bindings, hrendered, hcompile, hadditional, hargument⟩ := boundFor_compiles h
  unfold rendered at hrendered
  split at hrendered
  · rename_i value c hrender
    cases hrendered
    rw [resolverFor, ← hadditional] at hcompile
    exact ⟨value, c, _, hrender, hcompile, hadditional, hargument⟩
  · cases hrendered

end

end Template

end MappedSql
