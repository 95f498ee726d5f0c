import MappedSql.Proofs.Appending

/-!
# What a rendering takes back

A trim and each turn of a loop mark where the fragments end, render their part, and take back what
stands after the mark then. The mark is never beyond the end of the fragments: the part may have
taken back fragments itself, but none that were there when it began. For the same reason a rendering
takes back nothing that was there when it began.
-/

namespace MappedSql.Template

namespace Loop

/-- The contexts in which a loop renders its body: that of a turn, when all turns before it are
done. -/
def Enters {α : Type} (l : Loop) (body : Rendering α) (c c₁ : Context) : Prop :=
  ∃ before key element after c₀,
    l.elements.outcome c = (.ok (before ++ (key, element) :: after), c) ∧
      (l.forEach body true before).outcome (c.appendAll l.opening.toList) = (.ok (), c₀) ∧
        c₁ = l.entered key element c₀

theorem Enters.length_le {α : Type} {l : Loop} {body : Rendering α} {c c₁ : Context}
    (h : l.Enters body c c₁) (hbody : body.OnlyAppends) :
    c.fragments.length ≤ c₁.fragments.length := by
  obtain ⟨before, key, element, after, c₀, -, hturns, rfl⟩ := h
  have hopening : c.fragments.length ≤ (c.appendAll l.opening.toList).fragments.length :=
    (List.prefix_append _ _).length_le
  rw [fragments_entered]
  exact Nat.le_trans hopening ((l.forEach_onlyAppends hbody before true).length_le hturns)

end Loop

namespace Node

/-- In the course of rendering a node in a context, a `Rendering.capture` takes back the fragments
after `mark`, when there are `count` of them in all. A part that fails is not taken back, but what
it takes back before it fails counts, too. -/
inductive TakesBack : Node → Context → Nat → Nat → Prop
  | part {t body c applied c₁} (h : body.render.outcome c = (.ok applied, c₁)) :
      TakesBack (.trim t body) c c.fragments.length c₁.fragments.length
  | trim {t body c mark count} (h : TakesBack body c mark count) :
      TakesBack (.trim t body) c mark count
  | turn {l body c c₀ applied c₁} (hturn : l.Enters body.render c c₀)
      (h : body.render.outcome c₀ = (.ok applied, c₁)) :
      TakesBack (.loop l body) c c₀.fragments.length c₁.fragments.length
  | loop {l body c c₀ mark count} (hturn : l.Enters body.render c c₀)
      (h : TakesBack body c₀ mark count) : TakesBack (.loop l body) c mark count
  | sequence {before node after c c₁ mark count}
      (hbefore : (renderAll before).outcome c = (.ok (), c₁)) (h : TakesBack node c₁ mark count) :
      TakesBack (.sequence (before ++ node :: after)) c mark count
  | when {test body c mark count} (htest : (Rendering.holds test).outcome c = (.ok true, c))
      (h : TakesBack body c mark count) : TakesBack (.when test body) c mark count
  | case {before test node after otherwise c mark count}
      (hbefore : ∀ first ∈ before, (Rendering.holds first.1).outcome c = (.ok false, c))
      (htest : (Rendering.holds test).outcome c = (.ok true, c)) (h : TakesBack node c mark count) :
      TakesBack (.choose (before ++ (test, node) :: after) otherwise) c mark count
  | otherwise {cases node c mark count}
      (hcases : ∀ first ∈ cases, (Rendering.holds first.1).outcome c = (.ok false, c))
      (h : TakesBack node c mark count) : TakesBack (.choose cases (some node)) c mark count

theorem TakesBack.bounds {node : Node} {c : Context} {mark count : Nat}
    (h : node.TakesBack c mark count) : c.fragments.length ≤ mark ∧ mark ≤ count := by
  induction h with
  | part hbody => exact ⟨Nat.le_refl _, (render_onlyAppends _).length_le hbody⟩
  | trim _ ih => exact ih
  | turn hturn hbody =>
    exact ⟨hturn.length_le (render_onlyAppends _), (render_onlyAppends _).length_le hbody⟩
  | loop hturn _ ih =>
    exact ⟨Nat.le_trans (hturn.length_le (render_onlyAppends _)) ih.1, ih.2⟩
  | sequence hbefore _ ih =>
    exact ⟨Nat.le_trans ((renderAll_onlyAppends _).length_le hbefore) ih.1, ih.2⟩
  | when _ _ ih => exact ih
  | case _ _ _ ih => exact ih
  | otherwise _ _ ih => exact ih

end Node

/-- However the rendering of a template ends, it leaves the fragments that were there in place, puts
others after them, and does not turn the counter back. How it ends, what it appends, what is bound
and how far the counter goes are the same for all fragments that it may find there. What it takes
back on the way is what it appended, from a mark that is not beyond the end. -/
theorem renderings_only_append (node : Node) (c : Context) :
    (∃ result bindings appended counter, c.counter ≤ counter ∧
      ∀ fragments, node.render.outcome { c with fragments } =
        (result, ⟨bindings, fragments ++ appended, counter⟩)) ∧
      ∀ mark count, node.TakesBack c mark count → c.fragments.length ≤ mark ∧ mark ≤ count :=
  ⟨node.render_onlyAppends c.bindings c.counter, fun _ _ h => h.bounds⟩

def eachBracketed : Loop where
  collection := "groups"
  item := some "g"
  opening := some "in"
  separator := some ","

def groupWords : Node :=
  .loop { collection := "g", separator := some "," } (.literal "?")

def bracketedGroups : Node :=
  .loop eachBracketed (.trim { opening := some "(", closing := some ")" } groupWords)

def brokenGroups : Context where
  bindings := [("groups", .list [.list [.ofInt 1, .ofInt 2], .null])]
  fragments := ["select n", "where k"]
  counter := 3

def brokenGroups.first : Context :=
  eachBracketed.entered (.ofInt 0) (.list [.ofInt 1, .ofInt 2]) (brokenGroups.append "in")

/-- The rendering fails at the second group. In the turn of the first, the trim has taken back three
fragments that stood behind the text which opens the loop. -/
theorem broken_groups_only_append :
    bracketedGroups.TakesBack brokenGroups 3 6 ∧ brokenGroups.fragments.length ≤ 3 ∧ 3 ≤ 6 ∧
      ∃ bindings, ∀ fragments, bracketedGroups.render.outcome { brokenGroups with fragments } =
        (.error (.configuration (.nullCollection "g")),
          ⟨bindings, fragments ++ ["in", "( ? , ? )"], 7⟩) := by
  have hgroups := Expression.evaluate_path
    (show Expression.tokens "groups" = .ok [.path "groups"] by with_unfolding_all rfl)
  have hwords := Expression.evaluate_path
    (show Expression.tokens "g" = .ok [.path "g"] by with_unfolding_all rfl)
  have htakes : bracketedGroups.TakesBack brokenGroups 3 6 := by
    have helements : eachBracketed.elements.outcome brokenGroups =
        (.ok [(.ofInt 0, .list [.ofInt 1, .ofInt 2]), (.ofInt 1, .null)], brokenGroups) := by
      simp only [eachBracketed, Loop.elements, Rendering.evaluate, hgroups]
      with_unfolding_all rfl
    have hread : (groupWords.render.outcome brokenGroups.first).1.toOption = some true ∧
        (groupWords.render.outcome brokenGroups.first).2.fragments.length = 6 := by
      simp only [groupWords, Node.render, Loop.expand, Loop.elements, Rendering.evaluate, hwords]
      decide +kernel
    generalize houtcome : groupWords.render.outcome brokenGroups.first = o at hread
    obtain ⟨_ | applied, c⟩ := o
    · cases hread.1
    · exact hread.2 ▸ .loop ⟨[], _, _, _, _, helements, rfl, rfl⟩ (.part houtcome)
  have hended : ∃ bindings, bracketedGroups.render.outcome brokenGroups =
      (.error (.configuration (.nullCollection "g")),
        ⟨bindings, ["select n", "where k", "in", "( ? , ? )"], 7⟩) := by
    simp only [bracketedGroups, groupWords, eachBracketed, Node.render, Loop.expand, Loop.elements,
      Rendering.evaluate, hgroups, hwords]
    with_unfolding_all exact ⟨_, rfl⟩
  obtain ⟨⟨result, bindings, appended, counter, -, hall⟩, hbounds⟩ :=
    renderings_only_append bracketedGroups brokenGroups
  obtain ⟨hmark, hcount⟩ := hbounds 3 6 htakes
  refine ⟨htakes, hmark, hcount, bindings, ?_⟩
  -- What holds for all fragments is read off at those of the context.
  obtain ⟨bindings', hended⟩ := hended
  obtain ⟨rfl, hcontext⟩ := Prod.mk.inj ((hall brokenGroups.fragments).symm.trans hended)
  obtain ⟨-, hfragments, rfl⟩ := Context.mk.inj hcontext
  obtain rfl : appended = ["in", "( ? , ? )"] := List.append_cancel_left hfragments
  exact hall

end MappedSql.Template
