import MappedSql.Proofs.Renaming

/-!
# Paths step by step

A point ends a step wherever it stands, also in a bracket. So a path that is put together from two
texts with a point between them has the steps of both, one after the other, and it leads from an
argument to where the second leads from the end of the first. Bindings, which look up the first
name of a path themselves, resolve it as the map with the same entries does, unless that name is
empty: a map stays where it is then. Whatever is there has a type.
-/

namespace MappedSql

namespace Path

theorem segments_point (x y : List Char) :
    segments (x ++ '.' :: y) =
      ((segments x).1, (segments x).2 ++ (segments y).1 :: (segments y).2) := by
  induction x with
  | nil => rfl
  | cons c x ih =>
    by_cases hc : c = '.'
    · subst hc
      simp only [List.cons_append, segments, ih]
    · have hcons : ∀ s, segments (c :: s) = (c :: (segments s).1, (segments s).2) := fun s => by
        rw [segments]
        exact hc
      rw [List.cons_append, hcons, hcons, ih]

theorem steps_point (p q : String) :
    (ofText (p ++ "." ++ q)).steps = (ofText p).steps ++ (ofText q).steps := by
  have hchars : (p ++ "." ++ q).toList = p.toList ++ '.' :: q.toList := by simp
  simp only [ofText, hchars, segments_point, steps, List.map_append, List.map_cons,
    List.cons_append]

theorem steps_name {name : String} (hpoint : '.' ∉ name.toList) (hbracket : '[' ∉ name.toList) :
    (ofText name).steps = [{ text := name, name, index := none }] := by
  have hname := ofText_append hpoint hbracket (r := []) rfl
  rw [List.append_nil, String.ofList_toList] at hname
  rw [hname]
  rfl

end Path

namespace Argument

variable {a : Argument} {first : Step} {rest : List Step} {path name : String}

theorem along?_cons (a : Argument) (first : Step) (rest : List Step) :
    a.along? (first :: rest) = (a.step? first).bind (·.along? rest) :=
  rfl

theorem along?_append (a : Argument) (s t : List Step) :
    a.along? (s ++ t) = (a.along? s).bind (·.along? t) :=
  List.foldlM_append

theorem property?_point (a : Argument) (p q : String) :
    a.property? (p ++ "." ++ q) = (a.property? p).bind (·.property? q) := by
  rw [property?, Path.steps_point, along?_append]
  rfl

theorem property?_name (a : Argument) (hname : name ≠ "") (hpoint : '.' ∉ name.toList)
    (hbracket : '[' ∉ name.toList) : a.property? name = a.get? name := by
  have hempty : name.isEmpty = false := by simpa using hname
  rw [property?, Path.steps_name hpoint hbracket, along?_cons, step?]
  simp only [hempty, Bool.false_eq_true, if_false]
  cases a.get? name <;> rfl

theorem isSome_typeAlong? (h : (a.along? (first :: rest)).isSome) :
    (a.typeAlong? first rest).isSome := by
  simp only [typeAlong?, Option.isSome_or, Option.isSome_map, h, Bool.or_true]

theorem isSome_propertyType? (h : (a.property? path).isSome) : (a.propertyType? path).isSome :=
  isSome_typeAlong? h

end Argument

namespace Bindings

variable {b : Bindings} {path : String}

theorem property?_eq_map (h : (Path.ofText path).head.name ≠ "") :
    b.property? path = (Argument.map b).property? path := by
  have hempty : (Path.ofText path).head.name.isEmpty = false := by simpa using h
  rw [property?, Argument.property?, Path.steps, Argument.along?_cons, Argument.step?]
  simp only [hempty, Bool.false_eq_true, if_false, Argument.get?]
  cases Entries.get? b (Path.ofText path).head.name <;> rfl

theorem isSome_propertyType? (h : (b.property? path).isSome) : (b.propertyType? path).isSome := by
  have htype : ((b.property? path).map Argument.type).isSome := by rwa [Option.isSome_map]
  obtain ⟨value, hvalue⟩ := Option.isSome_iff_exists.mp h
  obtain ⟨root, hroot, hrest⟩ := Option.bind_eq_some_iff.mp hvalue
  obtain ⟨inner, hinner, halong⟩ := Option.bind_eq_some_iff.mp hrest
  simp only [propertyType?, hroot, Option.bind_eq_bind, Option.bind_some]
  split
  · rename_i next rest hindex htail
    rw [hindex] at hinner
    cases hinner
    rw [htail] at halong
    exact Argument.isSome_typeAlong? (Option.isSome_iff_exists.mpr ⟨value, halong⟩)
  · exact htype

end Bindings

/-- A point leads on from where the path before it leads, if that is anywhere; a name leads to the
property of that name. Bindings and the map with the same entries resolve a path alike that starts
with a name. Where either finds a property, it finds a type. -/
theorem paths_lead_on_at_points :
    (∀ (a : Argument) (p q : String), a.property? (p ++ "." ++ q) =
      match a.property? p with
      | some value => value.property? q
      | none => none) ∧
    (∀ (a : Argument) (name : String), name ≠ "" → '.' ∉ name.toList → '[' ∉ name.toList →
      a.property? name = a.get? name) ∧
    (∀ (b : Bindings) (path : String), (Path.ofText path).head.name ≠ "" →
      b.property? path = (Argument.map b).property? path) ∧
    (∀ (b : Bindings) (path : String),
      (b.property? path).isSome → (b.propertyType? path).isSome) ∧
    ∀ (a : Argument) (path : String),
      (a.property? path).isSome → (a.propertyType? path).isSome := by
  refine ⟨fun a p q => ?_, fun a name => a.property?_name, fun b path => b.property?_eq_map,
    fun b path => b.isSome_propertyType?, fun a path => a.isSome_propertyType?⟩
  rw [a.property?_point]
  cases a.property? p <;> rfl

def orders : Bindings :=
  [("orders", .list [.null, .map [("lines", .ofInt 3)]])]

theorem second_order_has_lines :
    (Path.ofText "orders[1].lines").head.name = "orders" ∧
    orders.property? "orders[1].lines" = (Argument.map orders).property? "orders[1].lines" ∧
    (Argument.map orders).property? "orders" = (Argument.map orders).get? "orders" ∧
    (orders.property? "orders[1].lines").isSome ∧
    (orders.propertyType? "orders[1].lines").isSome ∧
    ((Argument.map orders).property? "orders[1].lines").isSome ∧
    ((Argument.map orders).propertyType? "orders[1].lines").isSome := by
  obtain ⟨-, hname, hmap, htype, htype'⟩ := paths_lead_on_at_points
  have hhead : (Path.ofText "orders[1].lines").head.name = "orders" := by decide +kernel
  have hbound : (orders.property? "orders[1].lines").isSome := by decide +kernel
  have hmapped : ((Argument.map orders).property? "orders[1].lines").isSome := by decide +kernel
  refine ⟨hhead, hmap _ _ ?_, hname _ _ ?_ ?_ ?_, hbound, htype _ _ hbound, hmapped,
    htype' _ _ hmapped⟩
  · rw [hhead]
    decide
  all_goals decide

end MappedSql
