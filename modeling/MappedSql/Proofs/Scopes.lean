import MappedSql.Proofs.Happenings
import MappedSql.Proofs.Renaming

/-!
# Names in the scope of a placeholder

The account of a rendering tells what a name is bound to in the end. Names of elements are made
from numbers that are used once, so that what a turn binds them to stays. This is how a placeholder
of a turn can still be read when the text is there.
-/

namespace MappedSql.Template

open Placeholder (delimiters Reads firstName afterName property?)

-- ---------------------------------------------------------------------------
-- Names in scope
-- ---------------------------------------------------------------------------

def Happening.change? (name : String) : Happening → Option (Option Argument)
  | .bound other value => if other = name then some (some value) else none
  | .freed other => if other = name then some none else none
  | _ => none

/-- What a name is bound to in the end, if it was bound to `before` in the beginning. -/
def boundAfter (happened : List Happening) (name : String) (before : Option Argument) :
    Option Argument :=
  happened.foldl (fun bound h => (h.change? name).getD bound) before

/-- What a loop binds a name to in a turn. -/
def Turn.value? (t : Turn) (name : String) : Option Argument :=
  if t.loop.item = some name then some t.element
  else if t.loop.index = some name then some t.key
  else none

def placed (happened : List Happening) : List Placed :=
  happened.filterMap Happening.placed?

def ofArgument (handlers : HandlerRegistry) (argument : Argument) (property : String) :
    Except Error Argument :=
  BoundStatement.read { sql := "", parameters := [], argument } handlers property

namespace Placed

/-- What a name is bound to by the innermost turn that binds it. -/
def value? (p : Placed) (name : String) : Option Argument :=
  p.turns.findSome? (·.value? name)

/-- What a placeholder reads: from the innermost turn around it that binds the first name of its
property, and else from what that name is bound to; what is not bound, from the argument. -/
def reads (p : Placed) (bound : String → Option Argument) (handlers : HandlerRegistry)
    (argument : Argument) : Except Error Argument :=
  match property? p.content with
  | none => .ok argument
  | some property =>
    let path := Path.ofText property
    match (p.value? path.head.name).or (bound path.head.name) with
    | some value => .ok (((value.atIndex? path.head.index).bind (·.along? path.tail)).getD .null)
    | none => ofArgument handlers argument property

/-- The content that a placeholder gets in the turns that its text is appended in. -/
def written (p : Placed) : String :=
  p.turns.foldl (fun content t => t.loop.contentFor t.number content) p.content

end Placed

/-- A content that a loop takes for a placeholder of its own reads a name of the loop, and the
other way round. -/
def Clear (loops : List Loop) (content : String) : Prop :=
  ∀ name ∈ loops.flatMap Loop.names,
    (firstName content = name ∨
      ∃ property, property? content = some property ∧ (Path.ofText property).head.name = name) →
    Reads content name

instance (loops : List Loop) (content : String) : Decidable (Clear loops content) :=
  have (name : String) : Decidable (∃ property, property? content = some property ∧
      (Path.ofText property).head.name = name) :=
    inferInstanceAs (Decidable (∃ property ∈ property? content, _))
  inferInstanceAs (Decidable (∀ name ∈ loops.flatMap Loop.names, _ → Reads content name))

-- ---------------------------------------------------------------------------
-- What an account tells of names
-- ---------------------------------------------------------------------------

section
variable {x y : List Happening} {name : String} {before : Option Argument}

theorem boundAfter_append (x y : List Happening) (name : String) (before : Option Argument) :
    boundAfter (x ++ y) name before = boundAfter y name (boundAfter x name before) :=
  List.foldl_append

theorem boundAfter_of_unchanged (h : ∀ e ∈ x, e.change? name = none) :
    boundAfter x name before = before := by
  induction x generalizing before with
  | nil => rfl
  | cons e x ih =>
    obtain ⟨he, hx⟩ := List.forall_mem_cons.mp h
    rw [boundAfter, List.foldl_cons, he]
    exact ih hx

@[simp] theorem change?_within (t : Turn) (e : Happening) :
    (e.within t).change? name = e.change? name := by
  cases e <;> rfl

theorem boundAfter_map_within (t : Turn) (x : List Happening) (name : String)
    (before : Option Argument) :
    boundAfter (x.map (·.within t)) name before = boundAfter x name before := by
  simp only [boundAfter, List.foldl_map, change?_within]

theorem boundAfter_bound (other : String) (value : Argument) :
    boundAfter [.bound other value] name before = if other = name then some value else before := by
  rw [boundAfter, List.foldl_cons, List.foldl_nil, Happening.change?]
  split <;> rfl

theorem boundAfter_bindings (n : Nat) (other : Option String) (value : Argument) :
    boundAfter (Loop.bindings n other value) name before =
      if ∃ other' ∈ other, other' = name ∨ Loop.elementName other' n = name then some value
      else before := by
  cases other with
  | none => simp [Loop.bindings, boundAfter]
  | some other =>
    have happend := boundAfter_append [.bound (Loop.elementName other n) value]
      [.bound other value] name before
    rw [boundAfter_bound, boundAfter_bound] at happend
    refine happend.trans ?_
    by_cases hother : other = name
    · simp [hother]
    · simp [hother]

theorem placed_bindings (n : Nat) (other : Option String) (value : Argument) :
    placed (Loop.bindings n other value) = [] := by
  cases other <;> rfl

theorem placed_append (x y : List Happening) : placed (x ++ y) = placed x ++ placed y :=
  List.filterMap_append

theorem placed_map_within (t : Turn) (x : List Happening) :
    placed (x.map (·.within t)) = (placed x).map fun p => { p with turns := p.turns ++ [t] } := by
  rw [placed, placed, List.filterMap_map, List.map_filterMap]
  refine List.filterMap_congr fun e _ => ?_
  cases e <;> rfl

theorem placed_placements (text : String) :
    placed (placements text) =
      (delimiters.contents text).map fun content => { content } := by
  rw [placed, placements, List.filterMap_map]
  exact congrFun (List.filterMap_eq_map (f := fun content => ({ content } : Placed))) _

theorem placed_placementsOf (texts : List String) :
    placed (placementsOf texts) =
      (texts.flatMap delimiters.contents).map fun content => { content } := by
  induction texts with
  | nil => rfl
  | cons text rest ih =>
    rw [placementsOf, List.flatMap_cons, placed_append, placed_placements, List.flatMap_cons,
      List.map_append, ← ih]
    rfl

theorem written_placementsOf (texts : List String) :
    (placed (placementsOf texts)).map Placed.written = texts.flatMap delimiters.contents := by
  rw [placed_placementsOf, List.map_map]
  exact List.map_id _

theorem change?_of_mem_placementsOf {texts : List String} :
    ∀ e ∈ placementsOf texts, e.change? name = none := by
  simp only [placementsOf, placements, List.mem_flatMap, List.mem_map]
  rintro _ ⟨_, -, _, -, rfl⟩
  rfl

end

theorem get?_bind (c : Context) (name other : String) (value : Argument) :
    Entries.get? (c.bind name value).bindings other =
      boundAfter [.bound name value] other (Entries.get? c.bindings other) := by
  rw [boundAfter_bound, Context.bind]
  split
  · rename_i hother
    rw [hother, Entries.get?_put_self]
  · rename_i hother
    rw [Entries.get?_put_of_ne _ _ (Ne.symm hother)]

theorem get?_withElement (n : Nat) (name : Option String) (value : Argument) (c : Context)
    (other : String) :
    Entries.get? (Loop.withElement n name value c).bindings other =
      boundAfter (Loop.bindings n name value) other (Entries.get? c.bindings other) := by
  cases name with
  | none => rfl
  | some name =>
    rw [Loop.withElement, get?_bind, get?_bind, ← boundAfter_append]
    rfl

/-- A placeholder as an account tells of it: what was bound for its turns stays bound. -/
structure Placed.Sound (loops : List Loop) (c : Context) (happened : List Happening)
    (c' : Context) (p : Placed) : Prop where
  clear : Clear (p.turns.map (·.loop) ++ loops) p.content
  plainly : ∀ t ∈ p.turns, t.loop.NamesPlainly
  numbers : ∀ t ∈ p.turns, c.counter ≤ t.number ∧ t.number < c'.counter
  bound : ∀ t ∈ p.turns, ∀ name value, t.value? name = some value → ∀ before,
    boundAfter happened (Loop.elementName name t.number) before = some value

/-- What an account tells of the names in a rendering. Names of elements are made from numbers
that the rendering took from the counter. -/
structure Scoped (loops : List Loop) (c : Context) (happened : List Happening) (c' : Context) :
    Prop where
  bindings : ∀ name, Entries.get? c'.bindings name =
    boundAfter happened name (Entries.get? c.bindings name)
  counter : c.counter ≤ c'.counter
  elements : ∀ e ∈ happened, ∀ name n, e.change? (Loop.elementName name n) ≠ none →
    c.counter ≤ n ∧ n < c'.counter
  sound : ∀ p ∈ placed happened, p.Sound loops c happened c'

section
variable {loops : List Loop} {c c₁ c' : Context} {x y : List Happening}

theorem Placed.Sound.append {p : Placed} (h : p.Sound loops c x c₁)
    (hcounter : c₁.counter ≤ c'.counter)
    (hy : ∀ e ∈ y, ∀ name n, e.change? (Loop.elementName name n) ≠ none → c₁.counter ≤ n) :
    p.Sound loops c (x ++ y) c' := by
  refine ⟨h.clear, h.plainly, fun t ht => ?_, fun t ht name value hvalue before => ?_⟩
  · exact ⟨(h.numbers t ht).1, Nat.lt_of_lt_of_le (h.numbers t ht).2 hcounter⟩
  · rw [boundAfter_append, h.bound t ht name value hvalue before]
    refine boundAfter_of_unchanged fun e he => ?_
    by_contra hchange
    have hlow := hy e he name t.number hchange
    have hhigh := (h.numbers t ht).2
    omega

namespace Scoped

theorem trans (hx : Scoped loops c x c₁) (hy : Scoped loops c₁ y c') :
    Scoped loops c (x ++ y) c' := by
  refine ⟨fun name => ?_, hx.counter.trans hy.counter, ?_, ?_⟩
  · rw [boundAfter_append, ← hx.bindings, ← hy.bindings]
  · intro e he name n hchange
    rcases List.mem_append.mp he with he | he
    · obtain ⟨hlow, hhigh⟩ := hx.elements e he name n hchange
      exact ⟨hlow, Nat.lt_of_lt_of_le hhigh hy.counter⟩
    · obtain ⟨hlow, hhigh⟩ := hy.elements e he name n hchange
      exact ⟨hx.counter.trans hlow, hhigh⟩
  · intro p hp
    rw [placed_append] at hp
    rcases List.mem_append.mp hp with hp | hp
    · exact (hx.sound p hp).append hy.counter fun e he name n hchange =>
        (hy.elements e he name n hchange).1
    · have hsound := hy.sound p hp
      refine ⟨hsound.clear, hsound.plainly, fun t ht => ?_, fun t ht name value hvalue before => ?_⟩
      · exact ⟨hx.counter.trans (hsound.numbers t ht).1, (hsound.numbers t ht).2⟩
      · rw [boundAfter_append]
        exact hsound.bound t ht name value hvalue _

theorem placements {texts : List String}
    (h : ∀ text ∈ texts, ∀ content ∈ delimiters.contents text, Clear loops content)
    (hbindings : c'.bindings = c.bindings) (hcounter : c'.counter = c.counter) :
    Scoped loops c (placementsOf texts) c' where
  bindings name := by
    rw [hbindings]
    exact (boundAfter_of_unchanged change?_of_mem_placementsOf).symm
  counter := Nat.le_of_eq hcounter.symm
  elements e he name n hchange := absurd (change?_of_mem_placementsOf e he) hchange
  sound := by
    intro p hp
    rw [placed_placementsOf, List.mem_map] at hp
    obtain ⟨content, hcontent, rfl⟩ := hp
    obtain ⟨text, htext, hcontent⟩ := List.mem_flatMap.mp hcontent
    exact ⟨h text htext content hcontent, nofun, nofun, nofun⟩

theorem of_unplaced (hcounter : c'.counter = c.counter) (hplaced : placed x = [])
    (hbindings : ∀ name, Entries.get? c'.bindings name =
      boundAfter x name (Entries.get? c.bindings name))
    (helements : ∀ e ∈ x, ∀ name n, e.change? (Loop.elementName name n) = none) :
    Scoped loops c x c' where
  bindings := hbindings
  counter := Nat.le_of_eq hcounter.symm
  elements e he name n hchange := absurd (helements e he name n) hchange
  sound := by
    rw [hplaced]
    exact nofun

theorem ofFragments (h : Scoped loops c x c₁) (fragments : List String) :
    Scoped loops c x { c₁ with fragments } :=
  ⟨h.bindings, h.counter, h.elements, fun p hp =>
    ⟨(h.sound p hp).clear, (h.sound p hp).plainly, (h.sound p hp).numbers, (h.sound p hp).bound⟩⟩

theorem within {l : Loop} {t : Turn} (hx : Scoped loops c x c₁) (hy : Scoped (l :: loops) c₁ y c')
    (hloop : t.loop = l) (hl : l.NamesPlainly)
    (hnumber : c.counter ≤ t.number ∧ t.number < c₁.counter)
    (hbound : ∀ name value, t.value? name = some value → ∀ before,
      boundAfter x (Loop.elementName name t.number) before = some value) :
    Scoped loops c (x ++ y.map (·.within t)) c' := by
  refine ⟨fun name => ?_, hx.counter.trans hy.counter, ?_, ?_⟩
  · rw [boundAfter_append, boundAfter_map_within, ← hx.bindings, ← hy.bindings]
  · intro e he name n hchange
    rcases List.mem_append.mp he with he | he
    · obtain ⟨hlow, hhigh⟩ := hx.elements e he name n hchange
      exact ⟨hlow, Nat.lt_of_lt_of_le hhigh hy.counter⟩
    · obtain ⟨e, hmem, rfl⟩ := List.mem_map.mp he
      rw [change?_within] at hchange
      obtain ⟨hlow, hhigh⟩ := hy.elements e hmem name n hchange
      exact ⟨hx.counter.trans hlow, hhigh⟩
  · intro p hp
    rw [placed_append] at hp
    rcases List.mem_append.mp hp with hp | hp
    · refine (hx.sound p hp).append hy.counter fun e he name n hchange => ?_
      obtain ⟨e, hmem, rfl⟩ := List.mem_map.mp he
      rw [change?_within] at hchange
      exact (hy.elements e hmem name n hchange).1
    · rw [placed_map_within, List.mem_map] at hp
      obtain ⟨p, hmem, rfl⟩ := hp
      have hsound := hy.sound p hmem
      have hturns : ∀ P : Turn → Prop, (∀ u ∈ p.turns, P u) → P t → ∀ u ∈ p.turns ++ [t], P u :=
        fun P hall hlast => List.forall_mem_append.mpr ⟨hall, List.forall_mem_singleton.mpr hlast⟩
      refine ⟨?_, hturns _ hsound.plainly (hloop ▸ hl), hturns _ (fun t ht => ?_) ?_,
        hturns _ ?_ ?_⟩
      · simpa [hloop] using hsound.clear
      · exact ⟨hx.counter.trans (hsound.numbers t ht).1, (hsound.numbers t ht).2⟩
      · exact ⟨hnumber.1, Nat.lt_of_lt_of_le hnumber.2 hy.counter⟩
      · intro t ht name value hvalue before
        rw [boundAfter_append, boundAfter_map_within]
        exact hsound.bound t ht name value hvalue _
      · intro name value hvalue before
        rw [boundAfter_append, boundAfter_map_within, hbound name value hvalue]
        refine boundAfter_of_unchanged fun e he => ?_
        by_contra hchange
        have hlow := (hy.elements e he name t.number hchange).1
        omega

theorem entered {l : Loop} (hl : l.NamesPlainly) (loops : List Loop) (key element : Argument)
    (c : Context) :
    Scoped loops c
      (Loop.bindings c.counter l.index key ++ Loop.bindings c.counter l.item element)
      (l.entered key element c) := by
  refine ⟨fun name => ?_, by simp, ?_, ?_⟩
  · rw [Loop.entered, get?_withElement, get?_withElement, ← boundAfter_append]
  · have hbound : ∀ other ∈ l.names, ∀ value, ∀ e ∈ Loop.bindings c.counter (some other) value,
        ∀ name n, e.change? (Loop.elementName name n) ≠ none → n = c.counter := by
      intro other hother value e he name n hchange
      rcases List.mem_cons.mp he with rfl | he
      · have hname : Loop.elementName other c.counter = Loop.elementName name n := by
          by_contra hne
          exact hchange (if_neg hne)
        exact (Loop.elementName_inj.mp hname).2.symm
      · obtain rfl := List.mem_singleton.mp he
        have hname : other = Loop.elementName name n := by
          by_contra hne
          exact hchange (if_neg hne)
        exact absurd (hname ▸ Loop.isElementName_elementName name n) (hl other hother).2
    have hnumber : ∀ n, n = c.counter → c.counter ≤ n ∧ n < (l.entered key element c).counter := by
      rintro _ rfl
      simp
    intro e he name n hchange
    refine hnumber n ?_
    rcases List.mem_append.mp he with he | he
    · cases hindex : l.index with
      | none => exact absurd he (by simp [hindex, Loop.bindings])
      | some other =>
        exact hbound other (by simp [Loop.names, hindex]) _ e (hindex ▸ he) _ _ hchange
    · cases hitem : l.item with
      | none => exact absurd he (by simp [hitem, Loop.bindings])
      | some other =>
        exact hbound other (by simp [Loop.names, hitem]) _ e (hitem ▸ he) _ _ hchange
  · rw [placed_append, placed_bindings, placed_bindings]
    exact List.forall_mem_nil _

theorem boundAfter_entered {l : Loop} {key element : Argument} {n : Nat} {name : String}
    {value : Argument} (hl : l.NamesPlainly)
    (h : (Turn.mk l n key element).value? name = some value)
    (before : Option Argument) :
    boundAfter (Loop.bindings n l.index key ++ Loop.bindings n l.item element)
      (Loop.elementName name n) before = some value := by
  rw [boundAfter_append, boundAfter_bindings, boundAfter_bindings]
  rw [Turn.value?] at h
  split at h
  · rename_i hitem
    cases h
    exact if_pos ⟨name, hitem, .inr rfl⟩
  · rename_i hitem
    split at h
    · rename_i hindex
      cases h
      rw [if_neg, if_pos ⟨name, hindex, .inr rfl⟩]
      rintro ⟨other, hother, rfl | helement⟩
      · exact (hl _ (List.mem_append_left _ (Option.mem_toList.mpr hother))).2
          (Loop.isElementName_elementName _ _)
      · rw [(Loop.elementName_inj.mp helement).1] at hother
        exact hitem hother
    · cases h

end Scoped

end

-- ---------------------------------------------------------------------------
-- What is read
-- ---------------------------------------------------------------------------

theorem read_eq (s : BoundStatement) (handlers : HandlerRegistry) (property : String) :
    s.read handlers property =
      match Entries.get? s.additional (Path.ofText property).head.name with
      | some value => .ok (((value.atIndex? (Path.ofText property).head.index).bind
          (·.along? (Path.ofText property).tail)).getD .null)
      | none => ofArgument handlers s.argument property := by
  unfold ofArgument BoundStatement.read BoundStatement.hasAdditional Entries.contains
  cases hbound : Entries.get? s.additional (Path.ofText property).head.name with
  | none => rfl
  | some value => simp [Bindings.property?, hbound]

theorem Turn.value?_eq_none {t : Turn} {name : String} :
    t.value? name = none ↔ name ∉ t.loop.names := by
  unfold Turn.value? Loop.names
  cases t.loop.item <;> cases t.loop.index <;> simp <;> grind

namespace Placed

variable {p : Placed}

theorem written_of_unbound (hplainly : ∀ t ∈ p.turns, t.loop.NamesPlainly)
    (h : ∀ t ∈ p.turns, firstName p.content ∉ t.loop.names) : p.written = p.content := by
  obtain ⟨content, turns⟩ := p
  induction turns with
  | nil => rfl
  | cons t rest ih =>
    obtain ⟨ht, hrest⟩ := List.forall_mem_cons.mp hplainly
    obtain ⟨hname, hnames⟩ := List.forall_mem_cons.mp h
    rw [written, List.foldl_cons, Loop.contentFor_eq ht, if_neg hname]
    exact ih hrest hnames

/-- The innermost turn that binds the name at the start of a content renames it. The turns around
that one leave the name of an element alone. -/
theorem written_of_bound {value : Argument} (hplainly : ∀ t ∈ p.turns, t.loop.NamesPlainly)
    (h : p.value? (firstName p.content) = some value) :
    ∃ t ∈ p.turns, t.value? (firstName p.content) = some value ∧
      p.written = Loop.elementName (firstName p.content) t.number ++ afterName p.content := by
  obtain ⟨content, turns⟩ := p
  induction turns with
  | nil => cases h
  | cons t rest ih =>
    obtain ⟨ht, hrest⟩ := List.forall_mem_cons.mp hplainly
    rw [value?, List.findSome?_cons] at h
    rw [written, List.foldl_cons, Loop.contentFor_eq ht]
    dsimp only at h ⊢
    by_cases hname : firstName content ∈ t.loop.names
    · cases hvalue : t.value? (firstName content) with
      | none => exact absurd hname (Turn.value?_eq_none.mp hvalue)
      | some own =>
        rw [hvalue] at h
        cases h
        refine ⟨t, List.mem_cons_self, hvalue, ?_⟩
        rw [if_pos hname]
        refine written_of_unbound (p := ⟨_, rest⟩) hrest fun u hu hmem => ?_
        rw [(Loop.elementName_append (ht _ hname).1 _).1] at hmem
        exact (hrest u hu _ hmem).2 (Loop.isElementName_elementName _ _)
    · rw [Turn.value?_eq_none.mpr hname] at h
      obtain ⟨u, hu, hvalue, hwritten⟩ := ih hrest h
      refine ⟨u, List.mem_cons_of_mem _ hu, hvalue, ?_⟩
      rw [if_neg hname]
      exact hwritten

theorem value?_eq_none {name : String} :
    p.value? name = none ↔ ∀ t ∈ p.turns, name ∉ t.loop.names := by
  simp only [value?, List.findSome?_eq_none_iff, Turn.value?_eq_none]

/-- A placeholder reads what it is written as, if what was bound for its turns is still bound. -/
theorem Sound.reads {happened : List Happening} {c c' : Context}
    (hp : p.Sound [] c happened c') {s : BoundStatement} {handlers : HandlerRegistry}
    {parameter : Parameter} {bound : String → Option Argument}
    (hbound : ∀ name, Entries.get? s.additional name = bound name)
    (hturns : p.turns ≠ [] → ∀ name, ∃ before, bound name = boundAfter happened name before)
    (hparameter : parameter.property = property? p.written) :
    s.valueOf handlers parameter = p.reads bound handlers s.argument := by
  have hclear : ∀ name, (∃ t ∈ p.turns, name ∈ t.loop.names) →
      (firstName p.content = name ∨ ∃ property, property? p.content = some property ∧
        (Path.ofText property).head.name = name) → Reads p.content name := by
    rintro name ⟨t, ht, hname⟩ h
    refine hp.clear name ?_ h
    rw [List.append_nil, List.flatMap_map]
    exact List.mem_flatMap.mpr ⟨t, ht, hname⟩
  unfold BoundStatement.valueOf Placed.reads
  rw [hparameter]
  cases hvalue : p.value? (firstName p.content) with
  | some value =>
    obtain ⟨t, ht, hown, hwritten⟩ := written_of_bound hp.plainly hvalue
    have hname : firstName p.content ∈ t.loop.names := by
      by_contra hnot
      rw [Turn.value?_eq_none.mpr hnot] at hown
      cases hown
    have hplain := (hp.plainly t ht _ hname).1
    obtain ⟨hfirst, hafter⟩ := Loop.elementName_append hplain t.number
    rw [← hwritten] at hfirst hafter
    obtain ⟨property, property', tail, hproperty, hproperty', hpath, hpath'⟩ :=
      (hclear _ ⟨t, ht, hname⟩ (.inl rfl)).renamed hplain
        (Loop.plainName_elementName hplain _) hfirst hafter
    obtain ⟨before, hbefore⟩ := hturns (List.ne_nil_of_mem ht)
      (Loop.elementName (firstName p.content) t.number)
    rw [hproperty, hproperty']
    dsimp only
    rw [read_eq, hpath, hpath', hbound, hbefore, hp.bound t ht _ _ hown, hvalue]
    rfl
  | none =>
    have hnames := value?_eq_none.mp hvalue
    rw [written_of_unbound hp.plainly hnames]
    cases hproperty : property? p.content with
    | none => rfl
    | some property =>
      have hroot : p.value? (Path.ofText property).head.name = none := by
        refine value?_eq_none.mpr fun t ht hname => ?_
        have hreads := hclear _ ⟨t, ht, hname⟩ (.inr ⟨property, hproperty, rfl⟩)
        exact hnames t ht (hreads.starts ▸ hname)
      dsimp only
      rw [read_eq, hbound, hroot, Option.none_or]

end Placed

end MappedSql.Template
