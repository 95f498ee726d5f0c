import MappedSql.Proofs.Renderings

/-!
# Renderings only append

A trim and the turns of a loop take back what was appended since they began, and put something else
in its place. They never reach further back: however the rendering of a template ends, the fragments
that were there before are still there, in front of all others. Nor does a rendering ever look at
them. How it ends, what it appends and what is bound then depend on what was bound before, and on
the counter.

The induction is on the template, with all fragments at once that a step may find before it: those
that a part finds in a trim or in a turn are not those that were there at the start.
-/

namespace MappedSql.Template

def Appends (c c' : Context) : Prop :=
  c.fragments <+: c'.fragments

/-- From given bindings and a given counter a step goes one way, whatever fragments there are: it
leaves them in place, and adds others to them. The counter does not go back. -/
def Rendering.OnlyAppends {α : Type} (step : Rendering α) : Prop :=
  ∀ bindings counter, ∃ result bindings' appended counter', counter ≤ counter' ∧
    ∀ fragments, step.outcome ⟨bindings, fragments, counter⟩ =
      (result, ⟨bindings', fragments ++ appended, counter'⟩)

-- ---------------------------------------------------------------------------
-- Steps that only append
-- ---------------------------------------------------------------------------

namespace Rendering.OnlyAppends

variable {α β : Type} {step : Rendering α}

theorem respects (h : step.OnlyAppends) : step.Respects Appends := by
  intro c
  obtain ⟨_, _, appended, _, -, houtcome⟩ := h c.bindings c.counter
  exact ⟨appended, congrArg (·.2.fragments) (houtcome c.fragments).symm⟩

theorem length_le (h : step.OnlyAppends) {result : Except Error α} {c c' : Context}
    (houtcome : step.outcome c = (result, c')) : c.fragments.length ≤ c'.fragments.length := by
  have happends := h.respects c
  rw [houtcome] at happends
  exact happends.length_le

theorem of_silent (h : ∀ bindings counter, ∃ result bindings' counter', counter ≤ counter' ∧
    ∀ fragments, step.outcome ⟨bindings, fragments, counter⟩ =
      (result, ⟨bindings', fragments, counter'⟩)) : step.OnlyAppends := by
  intro bindings counter
  obtain ⟨result, bindings', counter', hcounter, hstep⟩ := h bindings counter
  refine ⟨result, bindings', [], counter', hcounter, fun fragments => ?_⟩
  rw [hstep, List.append_nil]

theorem pure (value : α) : (Pure.pure value : Rendering α).OnlyAppends :=
  of_silent fun bindings counter => ⟨.ok value, bindings, counter, Nat.le_refl _, fun _ => rfl⟩

theorem throw (e : Error) : (throw e : Rendering α).OnlyAppends :=
  of_silent fun bindings counter => ⟨.error e, bindings, counter, Nat.le_refl _, fun _ => rfl⟩

theorem bind {f : α → Rendering β} (h : step.OnlyAppends) (hf : ∀ value, (f value).OnlyAppends) :
    (step >>= f).OnlyAppends := by
  intro bindings counter
  obtain ⟨result, bindings₁, first, counter₁, hcounter, hstep⟩ := h bindings counter
  cases result with
  | error e =>
    refine ⟨.error e, bindings₁, first, counter₁, hcounter, fun fragments => ?_⟩
    rw [Action.outcome_bind, hstep]
  | ok value =>
    obtain ⟨result, bindings₂, rest, counter₂, hcounter', hrest⟩ := hf value bindings₁ counter₁
    refine ⟨result, bindings₂, first ++ rest, counter₂, Nat.le_trans hcounter hcounter',
      fun fragments => ?_⟩
    rw [Action.outcome_bind, hstep]
    dsimp only
    rw [hrest, List.append_assoc]

/-- What a step reads of the context must not be the fragments. -/
theorem reading {f : Context → Rendering β}
    (hread : ∀ c fragments, f { c with fragments } = f c) (hf : ∀ c, (f c).OnlyAppends) :
    (get >>= f).OnlyAppends := by
  intro bindings counter
  obtain ⟨result, bindings', appended, counter', hcounter, hstep⟩ :=
    hf ⟨bindings, [], counter⟩ bindings counter
  refine ⟨result, bindings', appended, counter', hcounter, fun fragments => ?_⟩
  rw [Action.outcome_bind, Action.outcome_get]
  dsimp only
  rw [← hstep fragments, ← hread ⟨bindings, [], counter⟩ fragments]

theorem append (text : String) : (Rendering.append text).OnlyAppends :=
  fun bindings counter => ⟨.ok (), bindings, [text], counter, Nat.le_refl _, fun _ => rfl⟩

theorem bindName (name : String) (value : Argument) : (Rendering.bind name value).OnlyAppends :=
  of_silent fun bindings counter =>
    ⟨.ok (), Entries.put name value bindings, counter, Nat.le_refl _, fun _ => rfl⟩

theorem unbind (name : String) : (Rendering.unbind name).OnlyAppends :=
  of_silent fun bindings counter =>
    ⟨.ok (), Entries.erase bindings name, counter, Nat.le_refl _, fun _ => rfl⟩

theorem fresh : Rendering.fresh.OnlyAppends :=
  of_silent fun bindings counter =>
    ⟨.ok counter, bindings, counter + 1, Nat.le_succ _, fun _ => rfl⟩

theorem evaluate (expression : String) : (Rendering.evaluate expression).OnlyAppends := by
  refine reading (fun _ _ => rfl) fun c => ?_
  split
  · exact pure _
  · exact throw _

theorem holds (test : String) : (Rendering.holds test).OnlyAppends :=
  bind (evaluate test) fun _ => pure _

/-- Taking back goes as far as the mark, which is where the fragments ended before. -/
theorem capture (h : step.OnlyAppends) : (Rendering.capture step).OnlyAppends := by
  intro bindings counter
  obtain ⟨result, bindings', appended, counter', hcounter, hstep⟩ := h bindings counter
  cases result with
  | error e =>
    refine ⟨.error e, bindings', appended, counter', hcounter, fun fragments => ?_⟩
    simp only [Rendering.capture, Action.outcome_bind, Action.outcome_get, hstep]
  | ok value =>
    refine ⟨.ok (value, Context.join appended), bindings', [], counter', hcounter,
      fun fragments => ?_⟩
    rw [Rendering.capture_ok]
    exact ⟨_, hstep fragments, by simp, by simp⟩

theorem around (t : Trim) (h : step.OnlyAppends) : (t.around step).OnlyAppends := by
  refine bind (capture h) ?_
  rintro ⟨value, text⟩
  dsimp only
  split
  · exact pure _
  · exact bind (append _) fun _ => pure _

end Rendering.OnlyAppends

namespace Loop

open Rendering (OnlyAppends)

variable {α : Type} {body : Rendering α}

theorem bindElement_onlyAppends (n : Nat) (name : Option String) (value : Argument) :
    (bindElement n name value).OnlyAppends := by
  cases name with
  | none => exact .pure _
  | some name => exact .bind (.bindName _ _) fun _ => .bindName _ _

theorem appendText_onlyAppends (text : Option String) : (appendText text).OnlyAppends := by
  cases text with
  | none => exact .pure _
  | some text => exact .append text

theorem unbindName_onlyAppends (name : Option String) : (unbindName name).OnlyAppends := by
  cases name with
  | none => exact .pure _
  | some name => exact .unbind name

theorem keep_onlyAppends (l : Loop) (first : Bool) (text : String) :
    (l.keep first text).OnlyAppends := by
  unfold keep
  split
  · exact .pure _
  · cases first with
    | true => exact .bind (.append _) fun _ => .pure _
    | false =>
      exact .bind (appendText_onlyAppends _) fun _ => .bind (.append _) fun _ => .pure _

theorem turn_onlyAppends (l : Loop) (h : body.OnlyAppends) (first : Bool)
    (key element : Argument) : (l.turn body first key element).OnlyAppends :=
  .bind .fresh fun _ => .bind (bindElement_onlyAppends _ _ _) fun _ =>
    .bind (bindElement_onlyAppends _ _ _) fun _ => .bind (.capture h) fun (_, _) =>
      l.keep_onlyAppends first _

theorem forEach_onlyAppends (l : Loop) (h : body.OnlyAppends)
    (elements : List (Argument × Argument)) (first : Bool) :
    (l.forEach body first elements).OnlyAppends := by
  induction elements generalizing first with
  | nil => exact .pure _
  | cons element rest ih =>
    obtain ⟨key, element⟩ := element
    rw [forEach_cons]
    exact .bind (l.turn_onlyAppends h first key element) ih

theorem elements_onlyAppends (l : Loop) : l.elements.OnlyAppends := by
  refine .bind (.evaluate _) fun collection => ?_
  repeat' split
  all_goals first | exact .pure _ | exact .throw _

theorem expand_onlyAppends (l : Loop) (h : body.OnlyAppends) : (l.expand body).OnlyAppends := by
  refine .bind l.elements_onlyAppends fun elements => ?_
  split
  · exact .pure _
  · exact .bind (appendText_onlyAppends _) fun _ => .bind (l.forEach_onlyAppends h _ _) fun _ =>
      .bind (appendText_onlyAppends _) fun _ => .bind (unbindName_onlyAppends _) fun _ =>
        unbindName_onlyAppends _

end Loop

-- ---------------------------------------------------------------------------
-- Templates
-- ---------------------------------------------------------------------------

namespace Node

theorem renderText_onlyAppends (text : String) (filter : Option Filter) :
    (renderText text filter).OnlyAppends := by
  have hvalue : bindValue.OnlyAppends := by
    refine .reading (fun _ _ => rfl) fun c => ?_
    dsimp only
    split
    · exact .bindName _ _
    · split
      · exact .bindName _ _
      · exact .pure _
  refine .bind hvalue fun _ => .reading (fun _ _ => rfl) fun c => ?_
  split
  · exact .append _
  · exact .throw _

mutual
theorem render_onlyAppends (node : Node) : node.render.OnlyAppends := by
  cases node with
  | literal text => exact .bind (.append text) fun _ => .pure _
  | substituted text filter => exact .bind (renderText_onlyAppends text filter) fun _ => .pure _
  | sequence nodes => exact .bind (renderAll_onlyAppends nodes) fun _ => .pure _
  | when test body =>
    refine .bind (.holds test) fun holds => ?_
    split
    · exact .bind (render_onlyAppends body) fun _ => .pure _
    · exact .pure _
  | choose cases otherwise =>
    cases otherwise with
    | none => exact renderFirst_onlyAppends cases (.pure _)
    | some node => exact renderFirst_onlyAppends cases (render_onlyAppends node)
  | trim t body => exact .around t (render_onlyAppends body)
  | loop l body => exact .bind (l.expand_onlyAppends (render_onlyAppends body)) fun _ => .pure _
  | bind name expression =>
    exact .bind (.evaluate _) fun _ => .bind (.bindName _ _) fun _ => .pure _

theorem renderAll_onlyAppends (nodes : List Node) : (renderAll nodes).OnlyAppends := by
  cases nodes with
  | nil => exact .pure _
  | cons node rest => exact .bind (render_onlyAppends node) fun _ => renderAll_onlyAppends rest

theorem renderFirst_onlyAppends (cases : List (String × Node)) {otherwise : Rendering Bool}
    (h : otherwise.OnlyAppends) : (renderFirst cases otherwise).OnlyAppends := by
  cases cases with
  | nil => exact h
  | cons first rest =>
    obtain ⟨test, node⟩ := first
    refine .bind (.holds test) fun holds => ?_
    split
    · exact render_onlyAppends node
    · exact renderFirst_onlyAppends rest h
end

theorem render_appends (node : Node) : node.render.Respects Appends :=
  node.render_onlyAppends.respects

end Node

end MappedSql.Template
