import MappedSql.Proofs.FreedNames
import MappedSql.Proofs.Placements
import MappedSql.Proofs.PrintedTokens

/-!
# Names that placeholders and expressions share

A name in an expression stands for what is bound to it, and else for a property of the caller's
argument, which is bound itself. A placeholder is read when the rendering is over, from what is
bound then, and else from the argument of the statement. Both find the same as long as the template
leaves the name of the argument alone and the argument is read part by part. Where nothing is found,
an expression is null. So is a placeholder if its first name is bound or the argument is a map;
otherwise its property is missing.

Words that are literals or operators have the form of a path, too. An expression takes them for what
they are, and a placeholder reads the property that is called so.
-/

namespace MappedSql

def Argument.HasParts (handlers : HandlerRegistry) : Argument → Prop
  | .map _ | .list _ => True
  | .record type _ => handlers.handles type.toValueType = false
  | .null | .value _ => False

theorem Argument.HasParts.reads {a : Argument} {handlers : HandlerRegistry}
    (h : a.HasParts handlers) :
    a.isNull = false ∧ a.isSimple = false ∧ handlers.handles a.type = false := by
  cases a with
  | null => exact h.elim
  | value => exact h.elim
  | list => exact ⟨rfl, rfl, rfl⟩
  | map => exact ⟨rfl, rfl, rfl⟩
  | record => exact ⟨rfl, rfl, h⟩

section
variable {s : BoundStatement} {handlers : HandlerRegistry} {path : String}

/-- What has no binding is a property of the argument, for a placeholder and for an expression. -/
theorem BoundStatement.lookup?_of_unbound (hparts : s.argument.HasParts handlers)
    (hargument : Entries.get? s.additional Scope.parameterName = some s.argument)
    (hbound : s.hasAdditional path = false) :
    Scope.lookup? s.additional path = s.argument.property? path := by
  rw [hasAdditional] at hbound
  simp only [Scope.lookup?, hbound, Bool.false_eq_true, if_false, hargument, Option.bind_eq_bind,
    Option.bind_some, hparts.reads.2.1]

/-- A placeholder reads what its path leads to in the bindings, or null. Where the path leads
nowhere it can be missing instead, but not from a map. -/
theorem BoundStatement.read_eq_lookup (hparts : s.argument.HasParts handlers)
    (hargument : Entries.get? s.additional Scope.parameterName = some s.argument) (path : String) :
    s.read handlers path = .ok ((Scope.lookup? s.additional path).getD .null) ∨
      (∀ entries, s.argument ≠ .map entries) ∧ Scope.lookup? s.additional path = none ∧
        s.read handlers path = .error (.parameter (.missingProperty path s.argument.type)) := by
  cases hbound : s.hasAdditional path with
  | true =>
    left
    rw [read, hbound, if_pos rfl, Scope.lookup?, ← hasAdditional, hbound, if_pos rfl]
  | false =>
    obtain ⟨hnull, -, hhandler⟩ := hparts.reads
    rw [lookup?_of_unbound hparts hargument hbound, read, hbound, hnull, hhandler]
    cases hproperty : s.argument.property? path with
    | some value => exact .inl rfl
    | none =>
      cases hmap : s.argument with
      | map => exact .inl rfl
      | _ => exact .inr ⟨nofun, rfl, rfl⟩

end

namespace Template

def Node.names (root : Node) : List String :=
  root.footprint.freed ++ root.footprint.bound

section
variable {root : Node} {handlers registered : HandlerRegistry} {databaseId : Option String}
  {argument : Argument} {s : BoundStatement} {c c' : Context} {applied : Bool} {name : String}

theorem Node.render_keeps (h : root.render.outcome c = (.ok applied, c'))
    (hname : name ∉ root.names) (helement : ¬Loop.isElementName name) :
    Entries.get? c'.bindings name = Entries.get? c.bindings name := by
  obtain ⟨hfreed, hbound⟩ := not_or.mp (mt List.mem_append.mpr hname)
  have hspares := Node.render_leaves root (.refl _) h
  have hnumbered : ¬root.footprint.Numbered c c' name := by
    rintro ⟨other, -, n, -, -, rfl⟩
    exact helement (Loop.isElementName_elementName other n)
  exact (hspares.names name hbound hnumbered).resolve_right fun hmem => hfreed hmem.1

theorem get?_parameter_start (argument : Argument) (databaseId : Option String) :
    Entries.get? (Context.start argument databaseId).bindings Scope.parameterName =
      some argument := by
  have hne : Scope.parameterName ≠ Scope.databaseIdName := by decide
  simp only [Context.start, Entries.ofList, List.foldl_cons, List.foldl_nil]
  rw [Entries.get?_put_of_ne _ _ hne, Entries.get?_put_self]

theorem bound_dynamic (h : (Template.dynamic root registered databaseId).bound argument = .ok s) :
    s.argument = argument ∧
      ∃ text, rendered root argument databaseId = .ok (text, s.additional) := by
  simp only [bound, bind_ok, pure_ok] at h
  obtain ⟨⟨text, bindings⟩, hrendered, _, -, rfl⟩ := h
  exact ⟨rfl, text, hrendered⟩

theorem rendered_keeps_argument {text : String} {bindings : Bindings}
    (h : rendered root argument databaseId = .ok (text, bindings))
    (hname : Scope.parameterName ∉ root.names) :
    Entries.get? bindings Scope.parameterName = some argument := by
  unfold rendered at h
  split at h
  · rename_i applied c hrender
    cases h
    rw [Node.render_keeps hrender hname (by decide), get?_parameter_start]
  · cases h

/-- Placeholders read what their paths lead to in the bindings that the rendering ends with, or
null, and so do expressions that are made of a path. A property is missing only where its path leads
nowhere, and never when the argument is a map. -/
theorem placeholders_read_like_expressions
    (h : (Template.dynamic root registered databaseId).bound argument = .ok s)
    (hparts : argument.HasParts handlers)
    (hargument : Scope.parameterName ∉ root.names ∨
      Entries.get? s.additional Scope.parameterName = some argument) :
    (∃ text, rendered root argument databaseId = .ok (text, s.additional)) ∧
    (∀ (p : Parameter) (path : String) (value : Argument), p.property = some path →
      s.valueOf handlers p = .ok value →
        value = (Scope.lookup? s.additional path).getD .null) ∧
    (∀ path, Expression.IsPath path →
      Expression.evaluate s.additional path =
        .ok ((Scope.lookup? s.additional path).getD .null)) ∧
    (∀ (p : Parameter) (path : String), p.property = some path →
      (Scope.lookup? s.additional path).isSome → ∃ value, s.valueOf handlers p = .ok value) ∧
    ∀ entries, argument = .map entries →
      ∀ p : Parameter, ∃ value, s.valueOf handlers p = .ok value := by
  obtain ⟨rfl, text, hrendered⟩ := bound_dynamic h
  have hread := BoundStatement.read_eq_lookup hparts
    (hargument.elim (rendered_keeps_argument hrendered) id)
  have hvalue : ∀ (p : Parameter) path, p.property = some path →
      s.valueOf handlers p = s.read handlers path := fun p path hp => by
    rw [BoundStatement.valueOf, hp]
  refine ⟨⟨text, hrendered⟩, fun p path value hp hok => ?_, fun path hpath => ?_,
    fun p path hp hfound => ?_, fun entries hmap p => ?_⟩
  · rw [hvalue p path hp] at hok
    rcases hread path with hfound | ⟨-, -, hmissing⟩
    · rw [hfound] at hok
      cases hok
      rfl
    · rw [hmissing] at hok
      cases hok
  · exact Expression.evaluate_path hpath.tokens s.additional
  · rw [hvalue p path hp]
    rcases hread path with hok | ⟨-, hnone, -⟩
    · exact ⟨_, hok⟩
    · rw [hnone] at hfound
      cases hfound
  · cases hp : p.property with
    | none => exact ⟨s.argument, by rw [BoundStatement.valueOf, hp]⟩
    | some path =>
      rw [hvalue p path hp]
      rcases hread path with hok | ⟨hnone, -⟩
      · exact ⟨_, hok⟩
      · exact absurd hmap (hnone entries)

end

def rowsWithin : Node :=
  .sequence [.bind "low" "limits.low", .literal "n >= #{low} and n < #{limits[high]} and row in",
    .loop { collection := "rows", item := some "row", opening := some "(", separator := some ",",
            closing := some ")" } (.literal "#{row}"),
    .literal "and note = #{note.text}"]

def rowLimits : Argument :=
  .map [("limits", .map [("high", .ofInt 9), ("low", .ofInt 2)]),
    ("rows", .list [.ofInt 4, .ofInt 5])]

theorem row_limits_read_like_expressions :
    rowLimits.HasParts .standard ∧ Scope.parameterName ∉ rowsWithin.names ∧
    Expression.IsPath "limits[high]" ∧
    ∃ s, (Template.dynamic rowsWithin .standard none).bound rowLimits = .ok s ∧
      textsRead s = some ["2", "9", "4", "5", "null"] ∧
      (∀ (p : Parameter) (path : String) (value : Argument), p.property = some path →
        s.valueOf .standard p = .ok value →
          value = (Scope.lookup? s.additional path).getD .null) ∧
      Expression.evaluate s.additional "limits[high]" =
        .ok ((Scope.lookup? s.additional "limits[high]").getD .null) ∧
      ∀ p : Parameter, ∃ value, s.valueOf .standard p = .ok value := by
  have hlow := Expression.evaluate_path
    (show Expression.tokens "limits.low" = .ok [.path "limits.low"] by with_unfolding_all rfl)
  have hrows := Expression.evaluate_path
    (show Expression.tokens "rows" = .ok [.path "rows"] by with_unfolding_all rfl)
  have hread : ((Template.dynamic rowsWithin .standard none).bound rowLimits).toOption.map
      textsRead = some (some ["2", "9", "4", "5", "null"]) := by
    simp only [bound, rowsWithin, rendered, Node.render, Node.renderAll, Loop.expand, Loop.elements,
      Rendering.evaluate, hlow, hrows]
    decide +kernel
  have hpath : Expression.IsPath "limits[high]" := by
    have hindex : Expression.WordRest ('[' :: ("high".toList ++ [']'])) :=
      .index (by decide) .nil
    have hrest : Expression.WordRest "imits[high]".toList :=
      hindex.append_parts (w := "imits".toList) (by decide +kernel)
    exact ⟨⟨'l', _, rfl, by decide +kernel, hrest⟩, by decide⟩
  have hparts : rowLimits.HasParts .standard := trivial
  have hname : Scope.parameterName ∉ rowsWithin.names := by decide
  obtain ⟨s, hs, htexts⟩ := exists_ok_of_map hread
  obtain ⟨-, hvalues, hpaths, -, hmap⟩ :=
    placeholders_read_like_expressions hs hparts (.inl hname)
  exact ⟨hparts, hname, hpath, s, hs, htexts, hvalues, hpaths _ hpath, hmap _ rfl⟩

def nullTwice : Node :=
  .sequence [.literal "a = #{null}", .bind "x" "null", .literal "and b = #{x}"]

def nullEntry : Argument :=
  .map [("null", .ofInt 5)]

/-- A literal has the form of a path. A placeholder of that form reads the property that is called
so, and an expression of that form is the literal. -/
theorem literals_are_no_paths :
    Expression.IsWord "null".toList ∧ Scope.parameterName ∉ nullTwice.names ∧
    nullEntry.HasParts .standard ∧
    ∃ s, (Template.dynamic nullTwice .standard none).bound nullEntry = .ok s ∧
      textsRead s = some ["5", "null"] ∧
      (∃ p ∈ s.parameters, p.property = some "null" ∧
        ∃ value, s.valueOf .standard p = .ok value ∧ value.toJson.text = "5") ∧
      Expression.evaluate s.additional "null" = .ok .null := by
  have hnull : ∀ b, Expression.evaluate b "null" = .ok .null := fun b =>
    Expression.evaluate_operand
      (show Expression.tokens "null" = .ok [.null] by with_unfolding_all rfl) rfl
  have hword : Expression.IsWord "null".toList :=
    ⟨'n', _, rfl, by decide +kernel, .of_parts (by decide +kernel)⟩
  have hread : ((Template.dynamic nullTwice .standard none).bound nullEntry).toOption.map
      (fun s => (textsRead s, s.parameters.any fun p => p.property == some "null" &&
        (s.valueOf .standard p).toOption.any (·.toJson.text == "5"))) =
      some (some ["5", "null"], true) := by
    simp only [bound, nullTwice, rendered, Node.render, Node.renderAll, Rendering.evaluate, hnull]
    decide +kernel
  obtain ⟨s, hs, hboth⟩ := exists_ok_of_map hread
  obtain ⟨htexts, hany⟩ := Prod.mk.inj hboth
  obtain ⟨p, hp, hreads⟩ := List.any_eq_true.mp hany
  obtain ⟨hproperty, hvalue⟩ := Bool.and_eq_true_iff.mp hreads
  refine ⟨hword, by decide, trivial, s, hs, htexts, ⟨p, hp, eq_of_beq hproperty, ?_⟩, hnull _⟩
  cases hok : s.valueOf .standard p with
  | error => rw [hok] at hvalue; cases hvalue
  | ok value =>
    rw [hok] at hvalue
    exact ⟨value, rfl, eq_of_beq hvalue⟩

end Template

end MappedSql
