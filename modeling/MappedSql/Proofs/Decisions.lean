import MappedSql.Proofs.Happenings

/-!
# Decisions determine the text

What an argument can change in the text of a statement without substitutions. A rendering takes
decisions: a test holds or not, a collection is null or has some number of elements. Two
renderings of one template, for any two arguments, append the same fragments as long as they
decide alike. So no part of an argument gets into the SQL, whatever is bound on the way.

The induction is on the template, with both renderings side by side. Their contexts agree in the
fragments and in the counter that names of elements are made from, and in nothing else.
-/

namespace MappedSql.Template

-- ---------------------------------------------------------------------------
-- Decisions
-- ---------------------------------------------------------------------------

def tests (happened : List Happening) : List Bool :=
  happened.filterMap Happening.test?

/-- The sizes of the collections that were met, in turn: none for one that is null. -/
def sizes (happened : List Happening) : List (Option Nat) :=
  happened.filterMap Happening.size?

def Silent (happened : List Happening) : Prop :=
  ∀ h ∈ happened, h.test? = none ∧ h.size? = none

structure SameDecisions (x y : List Happening) : Prop where
  tests : tests x = tests y
  sizes : sizes x = sizes y

/-- Nothing was decided differently as far as both accounts go. -/
structure Compatible (x y : List Happening) : Prop where
  tests : ∃ r s, tests x ++ r = Template.tests y ++ s
  sizes : ∃ r s, sizes x ++ r = Template.sizes y ++ s

section
variable {x x' y y' : List Happening}

theorem tests_append : tests (x ++ y) = tests x ++ tests y :=
  List.filterMap_append

theorem sizes_append : sizes (x ++ y) = sizes x ++ sizes y :=
  List.filterMap_append

namespace SameDecisions

theorem refl (x : List Happening) : SameDecisions x x := ⟨rfl, rfl⟩

theorem symm (h : SameDecisions x y) : SameDecisions y x :=
  ⟨h.tests.symm, h.sizes.symm⟩

theorem trans {z : List Happening} (h : SameDecisions x y) (h' : SameDecisions y z) :
    SameDecisions x z :=
  ⟨h.tests.trans h'.tests, h.sizes.trans h'.sizes⟩

theorem append (h : SameDecisions x y) (h' : SameDecisions x' y') :
    SameDecisions (x ++ x') (y ++ y') := by
  constructor
  · rw [tests_append, tests_append, h.tests, h'.tests]
  · rw [sizes_append, sizes_append, h.sizes, h'.sizes]

theorem compatible (h : SameDecisions x y) : Compatible x y :=
  ⟨⟨[], [], by rw [h.tests]⟩, ⟨[], [], by rw [h.sizes]⟩⟩

theorem of_silent (h : Silent x) : SameDecisions x [] :=
  ⟨List.filterMap_eq_nil_iff.mpr fun e he => (h e he).1,
    List.filterMap_eq_nil_iff.mpr fun e he => (h e he).2⟩

theorem map_within (t : Turn) (x : List Happening) : SameDecisions (x.map (·.within t)) x := by
  constructor
  · simp only [Template.tests, List.filterMap_map, Function.comp_def, Happening.test?_within]
  · simp only [Template.sizes, List.filterMap_map, Function.comp_def, Happening.size?_within]

end SameDecisions

namespace Compatible

theorem congr (h : Compatible x y) (hx : SameDecisions x x') (hy : SameDecisions y y') :
    Compatible x' y' :=
  ⟨hx.tests ▸ hy.tests ▸ h.tests, hx.sizes ▸ hy.sizes ▸ h.sizes⟩

theorem left (h : Compatible (x ++ x') (y ++ y')) : Compatible x y := by
  obtain ⟨⟨r, s, htests⟩, r', s', hsizes⟩ := h
  rw [tests_append, tests_append, List.append_assoc, List.append_assoc] at htests
  rw [sizes_append, sizes_append, List.append_assoc, List.append_assoc] at hsizes
  exact ⟨⟨_, _, htests⟩, ⟨_, _, hsizes⟩⟩

theorem right (h : Compatible (x ++ x') (y ++ y')) (hs : SameDecisions x y) :
    Compatible x' y' := by
  obtain ⟨⟨r, s, htests⟩, r', s', hsizes⟩ := h
  rw [tests_append, tests_append, List.append_assoc, List.append_assoc, hs.tests] at htests
  rw [sizes_append, sizes_append, List.append_assoc, List.append_assoc, hs.sizes] at hsizes
  exact ⟨⟨r, s, List.append_cancel_left htests⟩, ⟨r', s', List.append_cancel_left hsizes⟩⟩

theorem tested {v w : Bool} (h : Compatible (.tested v :: x) (.tested w :: y)) :
    v = w ∧ Compatible x y := by
  obtain ⟨⟨r, s, htests⟩, hsizes⟩ := h
  obtain ⟨rfl, hrest⟩ := List.cons_eq_cons.mp htests
  exact ⟨rfl, ⟨r, s, hrest⟩, hsizes⟩

theorem collected {m n : Option Nat} (h : Compatible (.collected m :: x) (.collected n :: y)) :
    m = n ∧ Compatible x y := by
  obtain ⟨htests, r, s, hsizes⟩ := h
  obtain ⟨rfl, hrest⟩ := List.cons_eq_cons.mp hsizes
  exact ⟨rfl, htests, ⟨r, s, hrest⟩⟩

end Compatible

end

theorem placementsOf_silent (texts : List String) : Silent (placementsOf texts) := by
  simp only [Silent, placementsOf, placements, List.mem_flatMap, List.mem_map]
  rintro _ ⟨_, -, _, -, rfl⟩
  exact ⟨rfl, rfl⟩

theorem after_silent {α : Type} {a : Rendering α} {next : α → Account} {c : Context}
    (h : ∀ value c', Silent (next value c')) : Silent (after a next c) := by
  unfold after
  split
  · exact h _ _
  · exact nofun

theorem Trim.account_decides {α : Type} (t : Trim) (part : Rendering α) (told : Account)
    (c : Context) : SameDecisions (t.account part told c) (told c) := by
  have hframing : ∀ text : Option String, SameDecisions (t.framing part text c) [] := by
    refine fun text => .of_silent (after_silent fun captured _ => ?_)
    split
    · exact nofun
    · exact placementsOf_silent _
  simpa [Trim.account] using
    ((hframing t.opening).append (.refl (told c))).append (hframing t.closing)

namespace Loop

variable {α : Type} {l : Loop} {c : Context}

theorem turnAccount_decides (l : Loop) (body : Rendering α) (told : Account) (first : Bool)
    (key element : Argument) (c : Context) :
    SameDecisions (l.turnAccount body told first key element c)
      (told (l.entered key element c)) := by
  have hbindings : ∀ (name : Option String) (value : Argument),
      SameDecisions (bindings c.counter name value) [] := by
    intro name value
    cases name <;> exact ⟨rfl, rfl⟩
  have hseparation :
      SameDecisions (l.separation body first c.counter (l.entered key element c)) [] := by
    refine .of_silent (after_silent fun captured _ => ?_)
    split
    · exact nofun
    · exact placementsOf_silent _
  simpa [turnAccount] using
    (((hbindings l.index key).append (hbindings l.item element)).append hseparation).append
      (SameDecisions.map_within _ (told (l.entered key element c)))

/-- The size of a collection tells how many turns a loop takes. -/
theorem elements_sized {elements : List (Argument × Argument)}
    (h : l.elements.outcome c = (.ok elements, c)) :
    ∃ collection, (Rendering.evaluate l.collection).outcome c = (.ok collection, c) ∧
      elements.length = (sizeOf collection).getD 0 := by
  obtain ⟨collection, hcollection, helements, -⟩ := elements_ok.mp h
  refine ⟨collection, Rendering.evaluate_ok.mpr ⟨hcollection, rfl⟩, ?_⟩
  unfold sizeOf
  split at helements
  · rename_i hnull
    simp [helements.2, hnull]
  · rename_i hnull
    simp [helements, hnull]

theorem account_decides {elements : List (Argument × Argument)} {collection : Argument}
    (body : Rendering α) (told : Account)
    (hcollection : (Rendering.evaluate l.collection).outcome c = (.ok collection, c))
    (helements : l.elements.outcome c = (.ok elements, c)) :
    SameDecisions (l.account body told c)
      (.collected (sizeOf collection) ::
        l.turnsAccount body told true elements (c.appendAll l.opening.toList)) := by
  rw [account, after_of_ok hcollection, after_of_ok helements]
  refine (SameDecisions.refl [.collected (sizeOf collection)]).append ?_
  cases elements with
  | nil => exact .refl []
  | cons element rest =>
    have hfreed : ∀ names : List String, Silent (names.map .freed) := by
      intro names e he
      obtain ⟨_, -, rfl⟩ := List.mem_map.mp he
      exact ⟨rfl, rfl⟩
    simpa using (((SameDecisions.of_silent (placementsOf_silent l.opening.toList)).append
      (.refl _)).append (.of_silent (placementsOf_silent l.closing.toList))).append
        (.of_silent (hfreed (l.item.toList ++ l.index.toList)))

end Loop

-- ---------------------------------------------------------------------------
-- Two renderings of one step
-- ---------------------------------------------------------------------------

structure SameText (c d : Context) : Prop where
  fragments : c.fragments = d.fragments
  counter : c.counter = d.counter

namespace SameText

variable {c d : Context}

theorem appendAll (h : SameText c d) (texts : List String) :
    SameText (c.appendAll texts) (d.appendAll texts) :=
  ⟨congrArg (· ++ texts) h.fragments, h.counter⟩

theorem entered (h : SameText c d) (l : Loop) (key element key' element' : Argument) :
    SameText (l.entered key element c) (l.entered key' element' d) := by
  constructor
  · simpa using h.fragments
  · simpa using h.counter

theorem leave (h : SameText c d) (l : Loop) : SameText (l.leave c) (l.leave d) := by
  have hunbind : ∀ (names : List String) (c d : Context), SameText c d →
      SameText (names.foldl Context.unbind c) (names.foldl Context.unbind d) := by
    intro names
    induction names with
    | nil => exact fun _ _ h => h
    | cons name rest ih => exact fun c d h => ih _ _ ⟨h.fragments, h.counter⟩
  exact hunbind _ _ _ (h.appendAll _)

end SameText

/-- Two renderings that begin with the same text, and succeed, end with the same text if they
decide alike; and they do so already if nothing that comes later tells them apart. -/
def Alike {α : Type} (a : Rendering α) (told : Account) : Prop :=
  ∀ ⦃c d v w c' d'⦄, SameText c d → a.outcome c = (.ok v, c') → a.outcome d = (.ok w, d') →
    Compatible (told c) (told d) → SameDecisions (told c) (told d) ∧ SameText c' d'

namespace Alike

variable {α β : Type} {a : Rendering α} {b : Rendering β} {told next : Account}

theorem andThen (ha : Alike a told) (hb : Alike b next) :
    Alike (a >>= fun _ => b) (fun c => told c ++ after a (fun _ => next) c) := by
  intro c d v w c' d' hcd hc hd hcompatible
  obtain ⟨_, c₁, hac, hbc⟩ := Action.outcome_bind_ok.mp hc
  obtain ⟨_, d₁, had, hbd⟩ := Action.outcome_bind_ok.mp hd
  dsimp only at hcompatible ⊢
  rw [after_of_ok hac, after_of_ok had] at hcompatible ⊢
  obtain ⟨hsame, hcd₁⟩ := ha hcd hac had hcompatible.left
  obtain ⟨hsame', hcd'⟩ := hb hcd₁ hbc hbd (hcompatible.right hsame)
  exact ⟨hsame.append hsame', hcd'⟩

theorem decided {test : String} {f : Bool → Rendering α} {told : Bool → Account}
    (h : ∀ holds, Alike (f holds) (told holds)) :
    Alike (Rendering.holds test >>= f)
      (after (Rendering.holds test) fun holds c => .tested holds :: told holds c) := by
  intro c d v w c' d' hcd hc hd hcompatible
  obtain ⟨holds, c₁, htc, hfc⟩ := Action.outcome_bind_ok.mp hc
  obtain ⟨holds', d₁, htd, hfd⟩ := Action.outcome_bind_ok.mp hd
  rw [after_of_ok htc, after_of_ok htd] at hcompatible ⊢
  obtain ⟨-, -, -, rfl⟩ := Rendering.holds_ok.mp htc
  obtain ⟨-, -, -, rfl⟩ := Rendering.holds_ok.mp htd
  obtain ⟨rfl, hrest⟩ := hcompatible.tested
  obtain ⟨hsame, hcd'⟩ := h holds hcd hfc hfd hrest
  exact ⟨(SameDecisions.refl [.tested holds]).append hsame, hcd'⟩

theorem pure (value : α) : Alike (Pure.pure value : Rendering α) fun _ => [] := by
  intro c d v w c' d' hcd hc hd _
  cases hc
  cases hd
  exact ⟨.refl [], hcd⟩

theorem returning (ha : Alike a told) (value : β) :
    Alike (a >>= fun _ => Pure.pure value) told := by
  intro c d v w c' d' hcd hc hd hcompatible
  obtain ⟨_, c₁, hac, hpc⟩ := Action.outcome_bind_ok.mp hc
  obtain ⟨_, d₁, had, hpd⟩ := Action.outcome_bind_ok.mp hd
  cases hpc
  cases hpd
  exact ha hcd hac had hcompatible

theorem around (t : Trim) (h : Alike a told) : Alike (t.around a) (t.account a told) := by
  intro c d v w c' d' hcd hc hd hcompatible
  obtain ⟨c₁, _, hac, rfl, rfl⟩ := Trim.around_ok.mp hc
  obtain ⟨d₁, _, had, rfl, rfl⟩ := Trim.around_ok.mp hd
  obtain ⟨hsame, hcd₁⟩ := h hcd hac had
    (hcompatible.congr (t.account_decides a told c) (t.account_decides a told d))
  refine ⟨(t.account_decides a told c).trans (hsame.trans (t.account_decides a told d).symm), ?_⟩
  exact ⟨by rw [hcd.fragments, hcd₁.fragments], hcd₁.counter⟩

theorem turns (l : Loop) (h : Alike a told) {first : Bool}
    {elements elements' : List (Argument × Argument)} (hlength : elements.length = elements'.length)
    {c d c' d' : Context} (hcd : SameText c d)
    (hc : (l.forEach a first elements).outcome c = (.ok (), c'))
    (hd : (l.forEach a first elements').outcome d = (.ok (), d'))
    (hcompatible : Compatible (l.turnsAccount a told first elements c)
      (l.turnsAccount a told first elements' d)) :
    SameDecisions (l.turnsAccount a told first elements c)
      (l.turnsAccount a told first elements' d) ∧ SameText c' d' := by
  induction elements generalizing elements' first c d with
  | nil =>
    obtain rfl := List.length_eq_zero_iff.mp hlength.symm
    cases hc
    cases hd
    exact ⟨.refl [], hcd⟩
  | cons element rest ih =>
    obtain ⟨key, element⟩ := element
    obtain _ | ⟨⟨key', element'⟩, rest'⟩ := elements'
    · cases hlength
    rw [Loop.forEach_cons, Action.outcome_bind_ok] at hc hd
    obtain ⟨first₁, c₁, htc, hc⟩ := hc
    obtain ⟨first₂, d₁, htd, hd⟩ := hd
    simp only [Loop.turnsAccount, after_of_ok htc, after_of_ok htd] at hcompatible ⊢
    obtain ⟨_, c₂, text, hac, htext, rfl, rfl⟩ := Loop.turn_ok.mp htc
    obtain ⟨_, d₂, text', had, htext', rfl, rfl⟩ := Loop.turn_ok.mp htd
    have hdc := l.turnAccount_decides a told first key element c
    have hdd := l.turnAccount_decides a told first key' element' d
    obtain ⟨hsame, hcd₂⟩ := h (hcd.entered l key element key' element') hac had
      (hcompatible.left.congr hdc hdd)
    -- Generated names are numbered by the counter, which is the same in both.
    obtain rfl : text = text' := by
      rw [htext, htext', hcd.counter, hcd₂.fragments, hcd.fragments]
    have hsame' := hdc.trans (hsame.trans hdd.symm)
    have hcd₁ : SameText
        { c₂ with fragments := c₂.fragments.take c.fragments.length ++ l.kept first text }
        { d₂ with fragments := d₂.fragments.take d.fragments.length ++ l.kept first text } :=
      ⟨by rw [hcd.fragments, hcd₂.fragments], hcd₂.counter⟩
    obtain ⟨hrest, hcd'⟩ := ih (Nat.succ.inj hlength) hcd₁ hc hd (hcompatible.right hsame')
    exact ⟨hsame'.append hrest, hcd'⟩

theorem expand (l : Loop) (h : Alike a told) : Alike (l.expand a) (l.account a told) := by
  intro c d v w c' d' hcd houtc houtd hcompatible
  obtain ⟨elements, hec, hc⟩ := Loop.expand_ok.mp houtc
  obtain ⟨elements', hed, hd⟩ := Loop.expand_ok.mp houtd
  obtain ⟨collection, hcc, hlength⟩ := Loop.elements_sized hec
  obtain ⟨collection', hcd', hlength'⟩ := Loop.elements_sized hed
  have hdc := Loop.account_decides a told hcc hec
  have hdd := Loop.account_decides a told hcd' hed
  obtain ⟨hsize, hrest⟩ := (hcompatible.congr hdc hdd).collected
  have helements : elements.length = elements'.length := by rw [hlength, hlength', hsize]
  suffices hturns : SameDecisions
      (l.turnsAccount a told true elements (c.appendAll l.opening.toList))
      (l.turnsAccount a told true elements' (d.appendAll l.opening.toList)) ∧ SameText c' d' by
    refine ⟨hdc.trans (SameDecisions.trans ?_ hdd.symm), hturns.2⟩
    rw [hsize]
    exact (SameDecisions.refl [.collected (Loop.sizeOf collection')]).append hturns.1
  rcases hc with ⟨rfl, rfl⟩ | ⟨hne, c₁, hc, rfl⟩
  · obtain rfl := List.length_eq_zero_iff.mp helements.symm
    rcases hd with ⟨-, rfl⟩ | ⟨hne, -⟩
    · exact ⟨.refl [], hcd⟩
    · exact absurd rfl hne
  · rcases hd with ⟨rfl, -⟩ | ⟨-, d₁, hd, rfl⟩
    · exact absurd (List.length_eq_zero_iff.mp helements) hne
    · obtain ⟨hsame, hcd₁⟩ := turns l h helements (hcd.appendAll _) hc hd hrest
      exact ⟨hsame, hcd₁.leave l⟩

end Alike

namespace Node

mutual
theorem alike (node : Node) (h : node.isFixed) : Alike node.render node.account := by
  cases node with
  | literal text =>
    intro c d v w c' d' hcd hc hd _
    cases hc
    cases hd
    exact ⟨.refl _, hcd.appendAll [text]⟩
  | substituted text filter => cases h
  | sequence nodes => exact (alikeAll nodes h).returning true
  | when test body =>
    refine Alike.decided (f := fun holds => if holds then body.render >>= fun _ => pure true
      else pure false) fun holds => ?_
    cases holds with
    | true => exact (alike body h).returning true
    | false => exact .pure false
  | choose cases otherwise =>
    cases otherwise with
    | none => exact alikeFirst cases h (.pure false)
    | some node =>
      obtain ⟨hcases, hnode⟩ := Bool.and_eq_true_iff.mp h
      exact alikeFirst cases hcases (alike node hnode)
  | trim t body => exact (alike body h).around t
  | loop l body => exact ((alike body h).expand l).returning true
  | bind name expression =>
    intro c d v w c' d' hcd hc hd _
    obtain ⟨value, c₁, hec, hbc⟩ := Action.outcome_bind_ok.mp hc
    obtain ⟨value', d₁, hed, hbd⟩ := Action.outcome_bind_ok.mp hd
    obtain ⟨-, rfl⟩ := Rendering.evaluate_ok.mp hec
    obtain ⟨-, rfl⟩ := Rendering.evaluate_ok.mp hed
    cases hbc
    cases hbd
    simp only [account, after_of_ok hec, after_of_ok hed]
    exact ⟨⟨rfl, rfl⟩, ⟨hcd.fragments, hcd.counter⟩⟩

theorem alikeAll (nodes : List Node) (h : allFixed nodes) :
    Alike (renderAll nodes) (accountOfAll nodes) := by
  cases nodes with
  | nil => exact .pure ()
  | cons node rest =>
    obtain ⟨hnode, hrest⟩ := Bool.and_eq_true_iff.mp h
    exact (alike node hnode).andThen (alikeAll rest hrest)

theorem alikeFirst (cases : List (String × Node)) {otherwise : Rendering Bool} {told : Account}
    (h : casesFixed cases) (hotherwise : Alike otherwise told) :
    Alike (renderFirst cases otherwise) (accountOfFirst cases told) := by
  cases cases with
  | nil => exact hotherwise
  | cons first rest =>
    obtain ⟨test, node⟩ := first
    obtain ⟨hnode, hrest⟩ := Bool.and_eq_true_iff.mp h
    refine Alike.decided (f := fun holds => if holds then node.render
      else renderFirst rest otherwise) fun holds => ?_
    cases holds with
    | true => exact alike node hnode
    | false => exact alikeFirst rest hrest hotherwise
end

end Node

-- ---------------------------------------------------------------------------
-- Two arguments for one statement
-- ---------------------------------------------------------------------------

/-- For any two arguments for which the same is decided, a template without substitutions has
one SQL text, and its parameters read the same properties in the same order. -/
theorem decisions_determine_sql {handlers : HandlerRegistry} {databaseId : Option String}
    {root : Node} {declared : ValueType} {a b : Argument} {s s' : BoundStatement}
    (hroot : root.isFixed) (ha : boundFor handlers databaseId root declared a = .ok s)
    (hb : boundFor handlers databaseId root declared b = .ok s')
    (hdecisions : SameDecisions (root.account (Context.start a databaseId))
      (root.account (Context.start b databaseId))) :
    s.sql = s'.sql ∧ s.parameters.map (·.property) = s'.parameters.map (·.property) := by
  obtain ⟨_, c, _, hrender, hcompile, -, -⟩ := boundFor_ok ha
  obtain ⟨_, c', _, hrender', hcompile', -, -⟩ := boundFor_ok hb
  have hstart : SameText (Context.start a databaseId) (Context.start b databaseId) := ⟨rfl, rfl⟩
  obtain ⟨-, htext⟩ := root.alike hroot hstart hrender hrender' hdecisions.compatible
  have hsql : c.sql = c'.sql := by rw [Context.sql, Context.sql, htext.fragments]
  rw [Resolver.compile_properties hcompile, Resolver.compile_properties hcompile', hsql]
  exact ⟨((Resolver.compile_ok.mp hcompile).2.trans
    (by rw [hsql])).trans (Resolver.compile_ok.mp hcompile').2.symm, rfl⟩

def taggedNotes : Node :=
  .sequence [.bind "it" "word", .literal "select n",
    .trim { opening := some "where", leading := ["AND"] } (.sequence [
      .when "author" (.literal "and a = #{author}"),
      .choose [("all", .literal "and t = 0")]
        (some (.loop { collection := "tags", item := some "t", opening := some "and t in (",
                       closing := some ")", separator := some "," } (.literal "#{t.name}"))),
      .literal "and w = #{it}"])]

def plainSearch : Argument :=
  .map [("author", .ofText "ann"),
    ("tags", .list [.map [("name", .ofText "new")], .map [("name", .ofText "old")]]),
    ("word", .ofText "a%")]

def hostileSearch : Argument :=
  .map [("author", .ofText "' or 1 = 1 --"),
    ("tags", .map [("#{x}", .null), ("?", .ofInt 3)]), ("word", .list [])]

theorem searches_have_one_sql :
    taggedNotes.isFixed ∧ ∃ s s',
      boundFor .standard none taggedNotes .map plainSearch = .ok s ∧
      boundFor .standard none taggedNotes .map hostileSearch = .ok s' ∧
      SameDecisions (taggedNotes.account (Context.start plainSearch none))
        (taggedNotes.account (Context.start hostileSearch none)) ∧
      s.sql = "select n where a = ? and t in ( ? , ? ) and w = ?" ∧
      s.sql = s'.sql ∧ s.parameters.map (·.property) = s'.parameters.map (·.property) := by
  have hword := Expression.evaluate_path
    (show Expression.tokens "word" = .ok [.path "word"] by with_unfolding_all rfl)
  have hauthor := Expression.evaluate_path
    (show Expression.tokens "author" = .ok [.path "author"] by with_unfolding_all rfl)
  have hall := Expression.evaluate_path
    (show Expression.tokens "all" = .ok [.path "all"] by with_unfolding_all rfl)
  have htags := Expression.evaluate_path
    (show Expression.tokens "tags" = .ok [.path "tags"] by with_unfolding_all rfl)
  have hplain : (boundFor .standard none taggedNotes .map plainSearch).toOption.map (·.sql) =
      some "select n where a = ? and t in ( ? , ? ) and w = ?" := by
    rw [boundFor_dynamic rfl]
    simp only [taggedNotes, rendered, Node.render, Node.renderAll, Node.renderFirst,
      Rendering.holds, Loop.expand, Loop.elements, Rendering.evaluate, hword, hauthor, hall, htags]
    decide +kernel
  have hhostile : (boundFor .standard none taggedNotes .map hostileSearch).toOption.map
      (fun _ => ()) = some () := by
    rw [boundFor_dynamic rfl]
    simp only [taggedNotes, rendered, Node.render, Node.renderAll, Node.renderFirst,
      Rendering.holds, Loop.expand, Loop.elements, Rendering.evaluate, hword, hauthor, hall, htags]
    decide +kernel
  have hdecisions : SameDecisions (taggedNotes.account (Context.start plainSearch none))
      (taggedNotes.account (Context.start hostileSearch none)) := by
    simp only [taggedNotes, Node.account, Node.accountOfAll, Node.accountOfFirst, Node.render,
      Node.renderAll, Node.renderFirst, Rendering.holds, Loop.account, Loop.expand, Loop.elements,
      Rendering.evaluate, hword, hauthor, hall, htags]
    exact ⟨by decide +kernel, by decide +kernel⟩
  obtain ⟨s, hs, hsql⟩ := exists_ok_of_map hplain
  obtain ⟨s', hs', -⟩ := exists_ok_of_map hhostile
  exact ⟨rfl, s, s', hs, hs', hdecisions, hsql, decisions_determine_sql rfl hs hs' hdecisions⟩

end MappedSql.Template
