import MappedSql.Proofs.Outcomes
import MappedSql.Placeholder.Resolve

/-!
# What compiling makes of placeholders

Compiling a text resolves the contents of its placeholders one by one, in order. The parameter
of a placeholder reads the property that is left among the parts of its content: no other part
changes it, whatever the types, the handlers and the bindings are.
-/

namespace MappedSql

namespace Placeholder

/-- The property that the content of a placeholder names. -/
def property? (content : String) : Option String :=
  match parts content with
  | .ok parts => Keyed.get? parts "property"
  | .error _ => none

variable {content name value : String} {draft draft' : Draft}

theorem applyPart_property (h : applyPart content draft name value = .ok draft') :
    draft'.parameter.property = draft.parameter.property := by
  unfold applyPart at h
  simp only at h
  repeat' split at h
  all_goals cases h
  all_goals rfl

theorem applyParts_property {parts : Parts} (h : applyParts content draft parts = .ok draft') :
    draft'.parameter.property = draft.parameter.property := by
  induction parts generalizing draft with
  | nil => cases h; rfl
  | cons part rest ih =>
    simp only [applyParts, List.foldlM_cons, bind_ok] at h
    obtain ⟨next, hpart, hrest⟩ := h
    rw [ih hrest, applyPart_property hpart]

end Placeholder

namespace Resolver

variable {r r' : Resolver} {content text : String} {p : Parameter} {sql : PositionalSql}

theorem resolve_ok : r.resolve content = .ok p ↔
    ∃ ps draft, Placeholder.parts content = .ok ps ∧
      Placeholder.applyParts content { parameter :=
        { property := Keyed.get? ps "property"
          type := r.inferType (Keyed.get? ps "property") (Keyed.get? ps "jdbcType") } } ps =
        .ok draft ∧
      ∃ handler, r.handlerFor draft = .ok handler ∧ p = { draft.parameter with handler } := by
  unfold resolve
  cases Placeholder.parts content with
  | error fault => simp
  | ok ps =>
    simp only [bind_ok, pure_ok, Except.ok.injEq]
    constructor
    · rintro ⟨draft, hdraft, handler, hhandler, rfl⟩
      exact ⟨ps, draft, rfl, hdraft, handler, hhandler, rfl⟩
    · rintro ⟨_, draft, rfl, hdraft, handler, hhandler, rfl⟩
      exact ⟨draft, hdraft, handler, hhandler, rfl⟩

theorem property_of_resolve (h : r.resolve content = .ok p) :
    p.property = Placeholder.property? content := by
  obtain ⟨ps, draft, hps, hdraft, handler, -, rfl⟩ := resolve_ok.mp h
  simpa [Placeholder.property?, hps] using Placeholder.applyParts_property hdraft

theorem compile_ok : r.compile text = .ok sql ↔
    List.Forall₂ (fun content p => r.resolve content = .ok p)
      (Placeholder.delimiters.contents text) sql.parameters ∧
    sql.sql = Placeholder.delimiters.replace (fun _ => Placeholder.marker) text := by
  simp only [compile, bind_ok, pure_ok, mapM_ok]
  constructor
  · rintro ⟨parameters, h, rfl⟩
    exact ⟨h, rfl⟩
  · rintro ⟨h, hsql⟩
    exact ⟨sql.parameters, h, by rw [← hsql]⟩

theorem compile_properties (h : r.compile text = .ok sql) :
    sql.parameters.map (·.property) =
      (Placeholder.delimiters.contents text).map Placeholder.property? := by
  rw [← List.forall₂_eq_eq_eq, List.forall₂_map_left_iff, List.forall₂_map_right_iff]
  exact (compile_ok.mp h).1.flip.imp fun _ _ => property_of_resolve

theorem compile_congr
    (h : ∀ content ∈ Placeholder.delimiters.contents text, r.resolve content = r'.resolve content) :
    r.compile text = r'.compile text := by
  rw [compile, compile, mapM_congr h]

end Resolver
end MappedSql
