import MappedSql.Proofs.Renderings

/-!
# Literal templates

A template of literal text alone is compiled once, against the declared type of the argument
and with nothing bound. Rendered for each argument instead, it would be compiled against the
type of the argument, with the argument itself bound. Both ways come to the same when the
declared type is that of the argument and no placeholder reads one of the two names that a
rendering binds: they fail alike, and else they bind the same values to the same SQL. So a
conditional part may be added to a literal statement without any effect on what it binds.
-/

namespace MappedSql

-- ---------------------------------------------------------------------------
-- Bindings that no placeholder reads
-- ---------------------------------------------------------------------------

/-- The property of a placeholder, if it names one, is not rooted at a bound name. -/
def Bindings.Unread (b : Bindings) (content : String) : Prop :=
  ∀ property, Placeholder.property? content = some property →
    Entries.contains b (Path.ofText property).head.name = false

namespace Bindings.Unread

variable {b : Bindings} {content property : String} {r : Resolver} {p : Parameter}

theorem property?_eq_none (h : Entries.contains b (Path.ofText property).head.name = false) :
    b.property? property = none := by
  have hroot : Entries.get? b (Path.ofText property).head.name = none :=
    Option.isNone_iff_eq_none.mp (Option.isSome_eq_false_iff.mp h)
  simp [property?, hroot]

theorem inferType (h : b.Unread content) (driverType : Option String) :
    { r with bindings := b }.inferType (Placeholder.property? content) driverType =
      { r with bindings := [] }.inferType (Placeholder.property? content) driverType := by
  cases hp : Placeholder.property? content with
  | none => rfl
  | some property =>
    simp only [Resolver.inferType, Option.bind_some, property?_eq_none (h property hp)]
    rfl

theorem resolve (h : b.Unread content) :
    { r with bindings := b }.resolve content = { r with bindings := [] }.resolve content := by
  unfold Resolver.resolve
  split
  · rfl
  · rename_i parts hparts
    have hproperty : Placeholder.property? content = Keyed.get? parts "property" := by
      rw [Placeholder.property?, hparts]
    rw [← hproperty]
    simp only [h.inferType]
    rfl

theorem valueOf {s : BoundStatement} (h : b.Unread content)
    (hp : p.property = Placeholder.property? content) (handlers : HandlerRegistry) :
    { s with additional := b }.valueOf handlers p =
      { s with additional := [] }.valueOf handlers p := by
  unfold BoundStatement.valueOf
  split
  · rfl
  · rename_i property hproperty
    have hunbound := h property (hp.symm.trans hproperty)
    simp only [BoundStatement.read, BoundStatement.hasAdditional, hunbound]
    rfl

end Bindings.Unread

-- ---------------------------------------------------------------------------
-- What literal text renders to
-- ---------------------------------------------------------------------------

namespace Template

namespace Node

theorem outcome_with_false (root other : Node) (c : Context) (h : root.isDynamic = false) :
    (sequence [root, .when "false" other]).render.outcome c =
      (.ok true, { c with fragments := c.fragments ++ root.literals }) := by
  have hfalse (b : Bindings) : Expression.evaluate b "false" = .ok (.ofBool false) :=
    Expression.evaluate_operand
      (show Expression.tokens "false" = .ok [.boolean false] by with_unfolding_all rfl) rfl
  have hwhen : ∀ c : Context,
      (Node.when "false" other).render.outcome c = (.ok false, c) := by
    intro c
    simp only [render, Rendering.holds, Rendering.evaluate, Action.outcome_bind,
      Action.outcome_get, hfalse]
    rfl
  rw [render, Action.outcome_bind]
  simp only [renderAll, Action.outcome_bind, outcome_literal root c h, hwhen,
    Action.outcome_pure]

end Node

theorem rendered_with_false {root : Node} (other : Node) (h : root.isDynamic = false)
    (argument : Argument) (databaseId : Option String) :
    rendered (.sequence [root, .when "false" other]) argument databaseId =
      .ok (root.literalText, (Context.start argument databaseId).bindings) := by
  simp only [rendered, Node.outcome_with_false root other _ h]
  rfl

-- ---------------------------------------------------------------------------
-- Compiling once, or for each argument
-- ---------------------------------------------------------------------------

/-- Two outcomes that differ in nothing that is sent to a driver: one error, or bound
statements with one SQL text and the same parameters, which read and bind the same. -/
inductive BindAlike (handlers : HandlerRegistry) :
    Except Error BoundStatement → Except Error BoundStatement → Prop
  | failed (e : Error) : BindAlike handlers (.error e) (.error e)
  | bound {s s' : BoundStatement} (sql : s.sql = s'.sql) (parameters : s.parameters = s'.parameters)
    (reads : ∀ p ∈ s.parameters, s.valueOf handlers p = s'.valueOf handlers p)
    (values : s.values handlers = s'.values handlers) : BindAlike handlers (.ok s) (.ok s')

theorem BindAlike.of_reads {handlers : HandlerRegistry} {s s' : BoundStatement}
    (sql : s.sql = s'.sql) (parameters : s.parameters = s'.parameters)
    (reads : ∀ p ∈ s.parameters, s.valueOf handlers p = s'.valueOf handlers p) :
    BindAlike handlers (.ok s) (.ok s') := by
  refine .bound sql parameters reads ?_
  rw [BoundStatement.values, BoundStatement.values, ← parameters]
  refine mapM_congr fun p hp => ?_
  rw [BoundStatement.bind, BoundStatement.bind, reads p hp]

/-- A literal template, compiled once for the type of the argument, and the same template with
a part that never applies, rendered and compiled for each argument, bind alike. -/
theorem literal_templates_bind_as_rendered {handlers : HandlerRegistry}
    {databaseId : Option String} {root : Node} {argumentType declared : ValueType}
    {argument : Argument} (other : Node) (hroot : root.isDynamic = false)
    (hfree : ∀ content ∈ Placeholder.delimiters.contents root.literalText,
      ∀ property, Placeholder.property? content = some property →
        (Path.ofText property).head.name ∉ [Scope.parameterName, Scope.databaseIdName])
    (htype : argument.type = argumentType) :
    BindAlike handlers (boundFor handlers databaseId root argumentType argument)
      (boundFor handlers databaseId (.sequence [root, .when "false" other]) declared argument) := by
  have hunread : ∀ content ∈ Placeholder.delimiters.contents root.literalText,
      (Context.start argument databaseId).bindings.Unread content :=
    fun content hm property hp =>
      congrArg Option.isSome (get?_start _ _ (hfree content hm property hp))
  have hcompile : Resolver.compile
      { handlers, argumentType, bindings := (Context.start argument databaseId).bindings }
      root.literalText =
        Resolver.compile { handlers, argumentType, bindings := [] } root.literalText :=
    Resolver.compile_congr fun content hm =>
      (hunread content hm).resolve (r := { handlers, argumentType, bindings := [] })
  subst htype
  simp only [boundFor, ofNode, hroot, rendered_literal hroot, Node.isDynamic, Node.anyDynamic,
    bound, rendered_with_false other hroot, Bool.false_or, Bool.true_or, if_true,
    Bool.false_eq_true, if_false, bind, pure, Except.bind, Except.pure, hcompile]
  cases hc : Resolver.compile { handlers, argumentType := argument.type, bindings := [] }
      root.literalText with
  | error e => exact .failed e
  | ok sql =>
    refine .of_reads rfl rfl
      ((Resolver.compile_ok.mp hc).1.forall_right fun content hm p hp => ?_)
    exact ((hunread content hm).valueOf (s := ⟨sql.sql, sql.parameters, [], argument⟩)
      (Resolver.property_of_resolve hp) handlers).symm

def noteQuery : Node :=
  .sequence [.literal "select n from notes where id = #{id, numericScale=2}",
    .sequence [.literal "and tags = #{ tags, typeHandler=json }"]]

def noteType : RecordType where
  name := "Note"
  properties := [("id", .int), ("tags", .list)]

def taggedNote : Argument :=
  .record noteType [("id", .ofInt 7), ("tags", .list [.ofText "new"])]

/-- A record is bound to literal text, at once or beside a part that would fail if it applied. -/
theorem note_query_binds_as_rendered :
    noteQuery.isDynamic = false ∧ taggedNote.type = noteType.toValueType ∧
      Placeholder.delimiters.contents noteQuery.literalText =
        ["id, numericScale=2", " tags, typeHandler=json "] ∧
      boundFor .standard none noteQuery noteType.toValueType taggedNote =
        .ok { sql := "select n from notes where id = ? and tags = ?"
              parameters := [{ property := some "id", type := .int, scale := some 2 },
                { property := some "tags", type := .list, handler := some .jsonText }]
              argument := taggedNote } ∧
      BindAlike .standard (boundFor .standard none noteQuery noteType.toValueType taggedNote)
        (boundFor .standard none
          (.sequence [noteQuery, .when "false" (.bind "id" "1 <")]) .map taggedNote) := by
  have hcontents : Placeholder.delimiters.contents noteQuery.literalText =
      ["id, numericScale=2", " tags, typeHandler=json "] := by
    decide +kernel
  have hid : Placeholder.property? "id, numericScale=2" = some "id" := by with_unfolding_all rfl
  have htags : Placeholder.property? " tags, typeHandler=json " = some "tags" := by
    with_unfolding_all rfl
  have hfree : ∀ content ∈ Placeholder.delimiters.contents noteQuery.literalText,
      ∀ property, Placeholder.property? content = some property →
        (Path.ofText property).head.name ∉ [Scope.parameterName, Scope.databaseIdName] := by
    rw [hcontents]
    simp only [List.forall_mem_cons, hid, htags, Option.some.injEq, forall_eq']
    exact ⟨by decide, by decide, List.forall_mem_nil _⟩
  exact ⟨rfl, rfl, hcontents, by with_unfolding_all rfl,
    literal_templates_bind_as_rendered _ rfl hfree rfl⟩

end Template

end MappedSql
