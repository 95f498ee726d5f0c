import MappedSql.Proofs.Expansion

/-!
# What a loop leaves bound

A loop binds its names anew in every turn and frees them when it ends. What they stood for before is
not kept anywhere, so it is gone then, also for the rest of a loop around it that gives the same
name; a loop without elements has no turns and leaves them alone. Everything else that is bound
stays as it is, but for the names of elements, which are made from numbers that were not used yet,
and what the body binds for good.

The footprint of a template is what its rendering may do to names. The induction is on the
template, for the successful renderings of its parts, and a turn counts the names of its loop among
those that stay bound: only the end of the loop frees them.
-/

namespace MappedSql.Template

-- ---------------------------------------------------------------------------
-- Footprints
-- ---------------------------------------------------------------------------

structure Footprint where
  /-- The names of loops, which are bound for their turns and then free. -/
  freed : List String := []
  /-- The names that stay bound. -/
  bound : List String := []

namespace Footprint

instance : Append Footprint :=
  ⟨fun f g => ⟨f.freed ++ g.freed, f.bound ++ g.bound⟩⟩

def Within (f g : Footprint) : Prop :=
  f.freed ⊆ g.freed ∧ f.bound ⊆ g.bound

theorem Within.refl (f : Footprint) : f.Within f :=
  ⟨List.Subset.refl _, List.Subset.refl _⟩

theorem append_within {f g h : Footprint} : (f ++ g).Within h ↔ f.Within h ∧ g.Within h := by
  change f.freed ++ g.freed ⊆ h.freed ∧ f.bound ++ g.bound ⊆ h.bound ↔ _
  simp only [Within, List.append_subset]
  constructor
  · rintro ⟨⟨hf, hg⟩, hf', hg'⟩
    exact ⟨⟨hf, hf'⟩, hg, hg'⟩
  · rintro ⟨⟨hf, hf'⟩, hg, hg'⟩
    exact ⟨⟨hf, hg⟩, hf', hg'⟩

def inTurns (f : Footprint) (l : Loop) : Footprint :=
  { f with bound := l.names ++ f.bound }

/-- The name of an element that has one of the numbers which a rendering took from the counter. -/
def Numbered (f : Footprint) (c c' : Context) (name : String) : Prop :=
  ∃ other ∈ f.freed, ∃ n, c.counter ≤ n ∧ n < c'.counter ∧ Loop.elementName other n = name

end Footprint

namespace Node

mutual
/-- The names of its loops, those it binds, and `value` where it substitutes text. -/
def footprint : Node → Footprint
  | .literal _ => {}
  | .substituted .. => { bound := ["value"] }
  | .sequence nodes => footprintOfAll nodes
  | .when _ body | .trim _ body => footprint body
  | .choose cases none => footprintOfCases cases
  | .choose cases (some node) => footprintOfCases cases ++ footprint node
  | .loop l body => { freed := l.names } ++ footprint body
  | .bind name _ => { bound := [name] }
def footprintOfAll : List Node → Footprint
  | [] => {}
  | node :: rest => footprint node ++ footprintOfAll rest
def footprintOfCases : List (String × Node) → Footprint
  | [] => {}
  | (_, node) :: rest => footprint node ++ footprintOfCases rest
end

end Node

-- ---------------------------------------------------------------------------
-- Contexts that keep what is bound
-- ---------------------------------------------------------------------------

theorem counter_unbindAll (freed : List String) (c : Context) :
    (freed.foldl Context.unbind c).counter = c.counter := by
  induction freed generalizing c with
  | nil => simp
  | cons name rest ih => simp [ih, Context.unbind]

/-- A name outside the footprint that is bound is bound to the same, or freed by a loop. -/
structure Spares (f : Footprint) (c c' : Context) : Prop where
  counter : c.counter ≤ c'.counter
  names : ∀ name, name ∉ f.bound → ¬f.Numbered c c' name →
    Entries.get? c'.bindings name = Entries.get? c.bindings name ∨
      name ∈ f.freed ∧ Entries.get? c'.bindings name = none

namespace Spares

variable {f g : Footprint} {c c₁ c' : Context}

theorem of_bindings_eq (hcounter : c'.counter = c.counter) (h : c'.bindings = c.bindings) :
    Spares f c c' where
  counter := Nat.le_of_eq hcounter.symm
  names name _ _ := .inl (by rw [h])

theorem refl (f : Footprint) (c : Context) : Spares f c c :=
  .of_bindings_eq rfl rfl

theorem trans (h : Spares f c c₁) (h' : Spares f c₁ c') : Spares f c c' where
  counter := h.counter.trans h'.counter
  names name hbound hnumbered := by
    have hfirst := h.names name hbound fun ⟨other, hother, n, hlow, hhigh, hname⟩ =>
      hnumbered ⟨other, hother, n, hlow, hhigh.trans_le h'.counter, hname⟩
    have hsecond := h'.names name hbound fun ⟨other, hother, n, hlow, hhigh, hname⟩ =>
      hnumbered ⟨other, hother, n, h.counter.trans hlow, hhigh, hname⟩
    rcases hsecond with hsame | hfreed
    · rw [hsame]
      exact hfirst
    · exact .inr hfreed

theorem mono (h : Spares f c c') (hfg : f.Within g) : Spares g c c' where
  counter := h.counter
  names name hbound hnumbered := by
    have hname := h.names name (fun hm => hbound (hfg.2 hm)) fun ⟨other, hother, hn⟩ =>
      hnumbered ⟨other, hfg.1 hother, hn⟩
    exact hname.imp_right (And.imp_left fun hm => hfg.1 hm)

theorem bind {name : String} (h : name ∈ f.bound) (value : Argument) :
    Spares f c (c.bind name value) where
  counter := Nat.le_refl _
  names other hother _ := by
    refine .inl (Entries.get?_put_of_ne _ _ ?_)
    rintro rfl
    exact hother h

theorem entered {l : Loop} (hl : l.names ⊆ f.freed) (key element : Argument) (c : Context) :
    Spares (f.inTurns l) c (l.entered key element c) where
  counter := by simp
  names name hbound hnumbered := by
    have hname : ∀ other : Option String, (∀ o ∈ other, o ∈ l.names) →
        ¬∃ o ∈ other, o = name ∨ Loop.elementName o c.counter = name := by
      rintro other hother ⟨o, ho, rfl | helement⟩
      · exact hbound (List.mem_append_left _ (hother o ho))
      · exact hnumbered ⟨o, hl (hother o ho), c.counter, Nat.le_refl _, by simp, helement⟩
    left
    rw [Loop.entered, get?_withElement, get?_withElement, boundAfter_bindings,
      if_neg (hname l.item ?_), boundAfter_bindings, if_neg (hname l.index ?_)]
    · intro o ho
      simp [Loop.names, Option.mem_def.mp ho]
    · intro o ho
      simp [Loop.names, Option.mem_def.mp ho]

theorem leave {l : Loop} (h : Spares (f.inTurns l) c c') (hl : l.names ⊆ f.freed) :
    Spares f c (l.leave c') := by
  have hcounter : (l.leave c').counter = c'.counter := counter_unbindAll _ _
  refine ⟨hcounter ▸ h.counter, fun name hbound hnumbered => ?_⟩
  rw [Loop.leave, ← Loop.names, get?_unbindAll]
  split
  · rename_i hfreed
    exact .inr ⟨hl hfreed, rfl⟩
  · rename_i hfreed
    refine h.names name ?_ ?_
    · simp [Footprint.inTurns, hfreed, hbound]
    · rintro ⟨other, hother, n, hlow, hhigh, hname⟩
      exact hnumbered ⟨other, hother, n, hlow, hcounter ▸ hhigh, hname⟩

end Spares

-- ---------------------------------------------------------------------------
-- Renderings that keep what is bound
-- ---------------------------------------------------------------------------

def Leaves {α : Type} (f : Footprint) (a : Rendering α) : Prop :=
  ∀ ⦃c value c'⦄, a.outcome c = (.ok value, c') → Spares f c c'

namespace Leaves

variable {α β : Type} {f g : Footprint} {a : Rendering α} {b : α → Rendering β} {l : Loop}

theorem pure (value : α) : Leaves f (Pure.pure value : Rendering α) := by
  intro c _ c' hc
  cases hc
  exact .refl f c

theorem bind (ha : Leaves f a) (hb : ∀ value, Leaves f (b value)) : Leaves f (a >>= b) := by
  intro c result c' hc
  obtain ⟨value, c₁, hfirst, hrest⟩ := Action.outcome_bind_ok.mp hc
  exact (ha hfirst).trans (hb value hrest)

theorem decided {test : String} {b : Bool → Rendering β} (hb : ∀ holds, Leaves f (b holds)) :
    Leaves f (Rendering.holds test >>= b) := by
  refine bind ?_ hb
  intro c holds c' hc
  obtain ⟨_, -, -, rfl⟩ := Rendering.holds_ok.mp hc
  exact .refl f c'

theorem around (t : Trim) (ha : Leaves f a) : Leaves f (t.around a) := by
  intro c value c' hc
  obtain ⟨c₁, _, hpart, -, rfl⟩ := Trim.around_ok.mp hc
  exact (ha hpart).trans (.of_bindings_eq rfl rfl)

theorem turn (hl : l.names ⊆ f.freed) (ha : Leaves f a) (first : Bool) (key element : Argument) :
    Leaves (f.inTurns l) (l.turn a first key element) := by
  intro c first' c' hc
  obtain ⟨_, c₁, _, hbody, -, -, rfl⟩ := Loop.turn_ok.mp hc
  have hwithin : f.Within (f.inTurns l) := ⟨List.Subset.refl _, List.subset_append_right _ _⟩
  have hturn := (Spares.entered hl key element c).trans ((ha hbody).mono hwithin)
  exact hturn.trans (.of_bindings_eq rfl rfl)

theorem turns (hl : l.names ⊆ f.freed) (ha : Leaves f a) (first : Bool)
    (elements : List (Argument × Argument)) :
    Leaves (f.inTurns l) (l.forEach a first elements) := by
  induction elements generalizing first with
  | nil => exact pure ()
  | cons entry rest ih =>
    obtain ⟨key, element⟩ := entry
    rw [Loop.forEach_cons]
    exact bind (turn hl ha first key element) ih

theorem expand (hl : l.names ⊆ f.freed) (ha : Leaves f a) : Leaves f (l.expand a) := by
  intro c value c' hc
  obtain ⟨elements, -, ⟨-, rfl⟩ | ⟨-, c₁, hturns, rfl⟩⟩ := Loop.expand_ok.mp hc
  · exact .refl f c'
  · have hopened : Spares (f.inTurns l) c (c.appendAll l.opening.toList) := .of_bindings_eq rfl rfl
    exact (hopened.trans (turns hl ha true elements hturns)).leave hl

end Leaves

namespace Node

variable {f : Footprint}

theorem renderText_leaves (text : String) (filter : Option Filter) (h : "value" ∈ f.bound) :
    Leaves f (renderText text filter) := by
  have hvalue : Leaves f bindValue := by
    intro c value c' hc
    rw [bindValue, Action.outcome_bind, Action.outcome_get] at hc
    dsimp only at hc
    repeat' split at hc
    all_goals cases hc
    · exact .bind h _
    · exact .bind h _
    · exact .refl f c
  refine hvalue.bind fun _ => ?_
  intro c value c' hc
  rw [Action.outcome_bind, Action.outcome_get] at hc
  dsimp only at hc
  split at hc
  · cases hc
    exact .of_bindings_eq rfl rfl
  · cases hc

mutual
theorem render_leaves (node : Node) (h : node.footprint.Within f) : Leaves f node.render := by
  cases node with
  | literal text =>
    intro c _ c' hc
    cases hc
    exact .of_bindings_eq rfl rfl
  | substituted text filter =>
    exact (renderText_leaves text filter (h.2 (List.mem_singleton_self _))).bind fun _ => .pure _
  | sequence nodes => exact (renderAll_leaves nodes h).bind fun _ => .pure _
  | when test body =>
    refine Leaves.decided fun holds => ?_
    split
    · exact (render_leaves body h).bind fun _ => .pure _
    · exact .pure _
  | choose cases otherwise =>
    cases otherwise with
    | none => exact renderFirst_leaves cases h (.pure _)
    | some node =>
      obtain ⟨hcases, hnode⟩ := Footprint.append_within.mp h
      exact renderFirst_leaves cases hcases (render_leaves node hnode)
  | trim t body => exact Leaves.around t (render_leaves body h)
  | loop l body =>
    obtain ⟨hl, hbody⟩ := Footprint.append_within.mp h
    exact (Leaves.expand hl.1 (render_leaves body hbody)).bind fun _ => .pure _
  | bind name expression =>
    intro c _ c' hc
    obtain ⟨value, c₁, heval, hbind⟩ := Action.outcome_bind_ok.mp hc
    obtain ⟨-, rfl⟩ := Rendering.evaluate_ok.mp heval
    cases hbind
    exact .bind (h.2 (List.mem_singleton_self _)) value

theorem renderAll_leaves (nodes : List Node) (h : (footprintOfAll nodes).Within f) :
    Leaves f (renderAll nodes) := by
  cases nodes with
  | nil => exact .pure _
  | cons node rest =>
    obtain ⟨hnode, hrest⟩ := Footprint.append_within.mp h
    exact (render_leaves node hnode).bind fun _ => renderAll_leaves rest hrest

theorem renderFirst_leaves (cases : List (String × Node)) {otherwise : Rendering Bool}
    (h : (footprintOfCases cases).Within f) (hotherwise : Leaves f otherwise) :
    Leaves f (renderFirst cases otherwise) := by
  cases cases with
  | nil => exact hotherwise
  | cons first rest =>
    obtain ⟨test, node⟩ := first
    obtain ⟨hnode, hrest⟩ := Footprint.append_within.mp h
    refine Leaves.decided fun holds => ?_
    split
    · exact render_leaves node hnode
    · exact renderFirst_leaves rest hrest hotherwise
end

end Node

-- ---------------------------------------------------------------------------
-- Loops
-- ---------------------------------------------------------------------------

theorem Loop.elementsIn_of_ok {l : Loop} {c c' : Context} {elements : List (Argument × Argument)}
    (h : l.elements.outcome c = (.ok elements, c')) : l.elementsIn c.bindings = elements := by
  obtain ⟨collection, hcollection, helements, -⟩ := Loop.elements_ok.mp h
  rw [Loop.elementsIn, hcollection]
  dsimp only
  split at helements
  · rename_i hnull
    obtain ⟨-, rfl⟩ := helements
    cases collection with
    | null => rfl
    | value v => rfl
    | _ => cases hnull
  · rw [helements]
    rfl

section
variable {l : Loop} {body : Node} {c c' : Context} {applied : Bool}

/-- A loop without elements changes nothing. Any other frees its names, whatever they stood for
before. Beside them, what is bound stays bound to the same, but for the names that the body binds,
those of elements, and those of loops in the body, which these may free. -/
theorem loops_free_their_names (h : (Node.loop l body).render.outcome c = (.ok applied, c')) :
    ((l.elementsIn c.bindings).isEmpty → c' = c) ∧
      (∀ name ∈ l.names, Entries.get? c'.bindings name =
        if (l.elementsIn c.bindings).isEmpty then Entries.get? c.bindings name else none) ∧
      ∀ name, name ∉ l.names → name ∉ body.footprint.bound →
        ¬(Node.loop l body).footprint.Numbered c c' name →
          Entries.get? c'.bindings name = Entries.get? c.bindings name ∨
            name ∈ body.footprint.freed ∧ Entries.get? c'.bindings name = none := by
  have hspares := Node.render_leaves (.loop l body) (.refl _) h
  rw [Node.render, Action.outcome_bind_ok] at h
  obtain ⟨_, c₁, hexpand, happlied⟩ := h
  cases happlied
  obtain ⟨elements, helements, hturns⟩ := Loop.expand_ok.mp hexpand
  rw [Loop.elementsIn_of_ok helements]
  refine ⟨fun hempty => ?_, fun name hname => ?_, fun name hname hbound hnumbered => ?_⟩
  · rcases hturns with ⟨-, rfl⟩ | ⟨hne, -⟩
    · rfl
    · exact absurd (List.isEmpty_iff.mp hempty) hne
  · rcases hturns with ⟨rfl, rfl⟩ | ⟨hne, c₂, -, rfl⟩
    · rfl
    · rw [if_neg (mt List.isEmpty_iff.mp hne), Loop.leave, ← Loop.names, get?_unbindAll,
        if_pos hname]
  · refine (hspares.names name hbound hnumbered).imp_right (And.imp_left fun hfreed => ?_)
    exact (List.mem_append.mp hfreed).resolve_left hname

end

def boundTexts (c : Context) (names : List String) : List (Option String) :=
  names.map fun name => (Entries.get? c.bindings name).map (·.toJson.text)

def eachWord : Node :=
  .loop { collection := "g", item := some "w", index := some "i", separator := some "," }
    (.literal "#{w}/#{i}")

def eachGroup : Loop where
  collection := "groups"
  item := some "g"
  index := some "i"

def beforeGroups : Context :=
  (((Context.start (.map [("groups", .list [.list [.ofInt 1, .ofInt 2], .list []])]) none).bind
    "i" (.ofInt 7)).bind "w" (.ofInt 8)).bind "k" (.ofInt 9)

theorem groups_free_their_names :
    ∃ c, (Node.loop eachGroup eachWord).render.outcome beforeGroups = (.ok true, c) ∧
      boundTexts c ["g", "i", "w", "k", "__frch_w_2"] = [none, none, none, some "9", some "2"] ∧
      ((eachGroup.elementsIn beforeGroups.bindings).isEmpty → c = beforeGroups) ∧
      (∀ name ∈ eachGroup.names, Entries.get? c.bindings name =
        if (eachGroup.elementsIn beforeGroups.bindings).isEmpty
        then Entries.get? beforeGroups.bindings name else none) ∧
      ∀ name, name ∉ eachGroup.names → name ∉ eachWord.footprint.bound →
        ¬(Node.loop eachGroup eachWord).footprint.Numbered beforeGroups c name →
          Entries.get? c.bindings name = Entries.get? beforeGroups.bindings name ∨
            name ∈ eachWord.footprint.freed ∧ Entries.get? c.bindings name = none := by
  have hgroups := Expression.evaluate_path
    (show Expression.tokens "groups" = .ok [.path "groups"] by with_unfolding_all rfl)
  have hwords := Expression.evaluate_path
    (show Expression.tokens "g" = .ok [.path "g"] by with_unfolding_all rfl)
  have hread : ((Node.loop eachGroup eachWord).render.outcome beforeGroups).1.toOption = some true ∧
      boundTexts ((Node.loop eachGroup eachWord).render.outcome beforeGroups).2
        ["g", "i", "w", "k", "__frch_w_2"] = [none, none, none, some "9", some "2"] := by
    simp only [eachGroup, eachWord, Node.render, Loop.expand, Loop.elements, Rendering.evaluate,
      hgroups, hwords]
    decide +kernel
  obtain ⟨hended, htexts⟩ := hread
  generalize houtcome : (Node.loop eachGroup eachWord).render.outcome beforeGroups = o at *
  obtain ⟨_ | applied, c⟩ := o
  · cases hended
  · obtain rfl : applied = true := Option.some.inj hended
    exact ⟨c, rfl, htexts, loops_free_their_names houtcome⟩

def beforeNumbers : Context :=
  ((Context.start (.map [("xs", .list [.ofInt 3, .ofInt 4])]) none).bind "x" (.ofInt 7)).bind
    "__frch_x_1" (.ofInt 8)

def eachNumber (body : Node) : Node :=
  .loop { collection := "xs", item := some "x", index := some "i" } body

/-- A name that is bound before a loop gives it, too, is free when the loop ends. So is a name of a
loop around it: a test after an inner loop of that name finds nothing. What looks like the name of
an element is bound to that element. -/
theorem loops_lose_outer_names :
    boundTexts beforeNumbers ["x", "i", "__frch_x_1"] = [some "7", none, some "8"] ∧
      ((eachNumber (.literal "#{x}")).render.outcome beforeNumbers).1.toOption = some true ∧
      boundTexts ((eachNumber (.literal "#{x}")).render.outcome beforeNumbers).2
        ["x", "i", "__frch_x_1"] = [none, none, some "4"] ∧
      ((eachNumber (.sequence [eachNumber (.literal "-"), .when "x" (.literal "+")])).render.outcome
        beforeNumbers).2.fragments = ["- -", "- -"] := by
  have hxs := Expression.evaluate_path
    (show Expression.tokens "xs" = .ok [.path "xs"] by with_unfolding_all rfl)
  have hx := Expression.evaluate_path
    (show Expression.tokens "x" = .ok [.path "x"] by with_unfolding_all rfl)
  simp only [eachNumber, Node.render, Node.renderAll, Loop.expand, Loop.elements,
    Rendering.holds, Rendering.evaluate, hxs, hx]
  decide +kernel

end MappedSql.Template
