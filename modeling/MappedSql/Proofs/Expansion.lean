import MappedSql.Proofs.Placements

/-!
# What loops expand to

A loop is what it repeats, written out: its body for every element in turn, each with the names of
the loop bound to that element. Templates are expanded here with the names in scope at hand, and
without names of elements, placeholders that are renamed, or names that are freed; the statement
that is rendered has the same text and reads the same values.
-/

namespace MappedSql.Template

open Placeholder (delimiters Closed Whole Reads firstName property?)

-- ---------------------------------------------------------------------------
-- Expansion
-- ---------------------------------------------------------------------------

/-- A fragment of SQL, with the values for the markers in it. -/
structure Passage where
  text : String
  values : List Argument

def marked (text : String) : String :=
  delimiters.replace (fun _ => Placeholder.marker) text

def valueIn (names : Bindings) (content : String) : Argument :=
  ((property? content).bind (Bindings.property? names)).getD .null

namespace Passage

def ofText (names : Bindings) (text : String) : Passage where
  text := marked text
  values := (delimiters.contents text).map (valueIn names)

def join (passages : List Passage) : Passage where
  text := Context.join (passages.map text)
  values := passages.flatMap values

def isBlank (p : Passage) : Bool :=
  Text.allBlank p.text.toList

def separated (separator : List Passage) : List Passage → List Passage
  | [] => []
  | p :: rest => p :: rest.flatMap fun q => separator ++ [q]

end Passage

namespace Loop

def named (name : Option String) (value : Argument) (names : Bindings) : Bindings :=
  match name with
  | none => names
  | some name => Entries.put name value names

def scope (l : Loop) (names : Bindings) (key element : Argument) : Bindings :=
  named l.item element (named l.index key names)

def elementsIn (l : Loop) (names : Bindings) : List (Argument × Argument) :=
  match Expression.evaluate names l.collection with
  | .ok collection => collection.elements?.getD []
  | .error _ => []

/-- The texts of a loop around the bodies of its elements, those left out that are blank. -/
def passages (l : Loop) (names : Bindings) (body : Bindings → List Passage) : List Passage :=
  let texts (text : Option String) : List Passage := text.toList.map (Passage.ofText names)
  match l.elementsIn names with
  | [] => []
  | elements =>
    let bodies := elements.map fun (key, element) =>
      Passage.join (body (l.scope names key element))
    texts l.opening ++
      Passage.separated (texts l.separator) (bodies.filter (!·.isBlank)) ++ texts l.closing

end Loop

namespace Node

mutual
def expansion (names : Bindings) : Node → List Passage
  | .literal text => [.ofText names text]
  | .sequence nodes => expansionOfAll names nodes
  | .loop l body => l.passages names fun names => expansion names body
  | _ => []
def expansionOfAll (names : Bindings) : List Node → List Passage
  | [] => []
  | node :: rest => expansion names node ++ expansionOfAll names rest
end

end Node

-- ---------------------------------------------------------------------------
-- Templates that can be expanded
-- ---------------------------------------------------------------------------

/-- A text without escapes whose placeholders are closed in it, and read names of loops. -/
structure Exact (loops : List Loop) (text : String) : Prop where
  closed : Closed text.toList
  reads : ∀ content ∈ delimiters.contents text, ∃ name ∈ loops.flatMap Loop.names,
    Reads content name

/-- A loop in other loops over what a path leads to, with names of its own. -/
structure Loop.Nests (loops : List Loop) (l : Loop) : Prop where
  plainly : l.NamesPlainly
  fresh : ∀ name ∈ l.names, name ∉ loops.flatMap Loop.names ∧ name ≠ Scope.parameterName ∧
    name ≠ Scope.databaseIdName
  path : ∃ path, ¬Loop.isElementName (Path.ofText path).head.name ∧
    ∀ b, Expression.evaluate b l.collection = .ok ((Scope.lookup? b path).getD .null)

instance (loops : List Loop) (text : String) : Decidable (Exact loops text) :=
  decidable_of_iff (Closed text.toList ∧ ∀ content ∈ delimiters.contents text,
      ∃ name ∈ loops.flatMap Loop.names, Reads content name)
    ⟨fun h => ⟨h.1, h.2⟩, fun h => ⟨h.closed, h.reads⟩⟩

namespace Node

mutual
def IsExpandable (loops : List Loop) : Node → Prop
  | .literal text => Exact loops text
  | .sequence nodes => AllExpandable loops nodes
  | .loop l body =>
    l.Nests loops ∧
      (∀ text ∈ l.opening.toList ++ l.closing.toList ++ l.separator.toList, Exact loops text) ∧
      IsExpandable (l :: loops) body
  | _ => False
def AllExpandable (loops : List Loop) : List Node → Prop
  | [] => True
  | node :: rest => IsExpandable loops node ∧ AllExpandable loops rest
end

end Node

theorem Exact.orderly {loops : List Loop} {text : String} (h : Exact loops text) :
    Orderly loops text := by
  refine ⟨Placeholder.Whole.tidy h.closed.cuts, fun content hcontent name _ hname => ?_⟩
  obtain ⟨read, -, hreads⟩ := h.reads content hcontent
  rcases hname with hstarts | ⟨property, hproperty, hroot⟩
  · rwa [← hstarts, hreads.starts]
  · obtain ⟨property', hproperty', hroot', -⟩ := hreads.head
    obtain rfl := Option.some.inj (hproperty.symm.trans hproperty')
    rwa [← hroot, hroot']

namespace Node

mutual
theorem IsExpandable.orderly {node : Node} {loops : List Loop} (h : node.IsExpandable loops) :
    node.IsOrderly loops := by
  cases node with
  | literal text => exact Exact.orderly h
  | sequence nodes => exact AllExpandable.orderly h
  | loop l body => exact ⟨h.1.plainly, fun text hm => (h.2.1 text hm).orderly, h.2.2.orderly⟩
  | _ => cases h

theorem AllExpandable.orderly {nodes : List Node} {loops : List Loop}
    (h : AllExpandable loops nodes) : AllOrderly loops nodes := by
  cases nodes with
  | nil => trivial
  | cons node rest => exact ⟨h.1.orderly, AllExpandable.orderly h.2⟩
end

end Node

-- ---------------------------------------------------------------------------
-- Names in scope
-- ---------------------------------------------------------------------------

/-- In a context the names in scope are bound as they are, but for hidden ones. Beside them only
names of elements are bound. -/
def Models (hidden : List String) (names : Bindings) (c : Context) : Prop :=
  ∀ name, name ∉ hidden → ¬Loop.isElementName name →
    Entries.get? c.bindings name = Entries.get? names name

def Within (loops : List Loop) (names : Bindings) : Prop :=
  ∀ name, Entries.get? names name ≠ none →
    name ∈ loops.flatMap Loop.names ∨ name = Scope.parameterName ∨ name = Scope.databaseIdName

section
variable {loops : List Loop} {l : Loop} {names : Bindings} {c c₁ c' : Context}
  {key element : Argument}

theorem get?_named (name : Option String) (value : Argument) (names : Bindings) (other : String) :
    Entries.get? (Loop.named name value names) other =
      if other ∈ name then some value else Entries.get? names other := by
  cases name with
  | none => rfl
  | some name =>
    rw [Loop.named]
    by_cases h : other = name
    · subst h
      simp [Entries.get?_put_self]
    · simp [Entries.get?_put_of_ne _ _ h, Ne.symm h]

theorem get?_scope (l : Loop) (names : Bindings) (n : Nat) (key element : Argument)
    (name : String) :
    Entries.get? (l.scope names key element) name =
      ((Turn.mk l n key element).value? name).or (Entries.get? names name) := by
  rw [Loop.scope, get?_named, get?_named, Turn.value?]
  simp only [Option.mem_def]
  split
  · rfl
  · split <;> rfl

theorem Models.lookup (h : Models [] names c) {path : String}
    (hpath : ¬Loop.isElementName (Path.ofText path).head.name) :
    Scope.lookup? c.bindings path = Scope.lookup? names path := by
  have hroot := h _ List.not_mem_nil hpath
  have hparameter := h Scope.parameterName List.not_mem_nil (by decide)
  unfold Scope.lookup? Entries.contains Bindings.property?
  dsimp only
  rw [hroot, hparameter]

theorem Models.entered (h : Models l.names names c) (key element : Argument) :
    Models [] (l.scope names key element) (l.entered key element c) := by
  intro name _ hname
  have hbound : ∀ (other : Option String) (value : Argument) (before : Option Argument),
      boundAfter (Loop.bindings c.counter other value) name before =
        if name ∈ other then some value else before := by
    intro other value before
    rw [boundAfter_bindings]
    refine if_congr ⟨?_, fun hm => ⟨name, hm, .inl rfl⟩⟩ rfl rfl
    rintro ⟨other', hm, rfl | rfl⟩
    · exact hm
    · exact absurd (Loop.isElementName_elementName other' c.counter) hname
  rw [Loop.entered, get?_withElement, get?_withElement, Loop.scope, get?_named, get?_named]
  dsimp only [Loop.counter_withElement]
  rw [hbound, hbound]
  by_cases hitem : name ∈ l.item
  · rw [if_pos hitem, if_pos hitem]
  · by_cases hindex : name ∈ l.index
    · rw [if_neg hitem, if_neg hitem, if_pos hindex, if_pos hindex]
    · rw [if_neg hitem, if_neg hitem, if_neg hindex, if_neg hindex]
      refine h name ?_ hname
      simpa [Loop.names] using ⟨hitem, hindex⟩

theorem Models.outside (h : Models [] (l.scope names key element) c) : Models l.names names c := by
  intro name hhidden hname
  rw [h name List.not_mem_nil hname, get?_scope l names 0, Turn.value?_eq_none.mpr hhidden,
    Option.none_or]

theorem fragments_unbindAll (freed : List String) (c : Context) :
    (freed.foldl Context.unbind c).fragments = c.fragments := by
  induction freed generalizing c with
  | nil => rfl
  | cons name rest ih => exact ih (c.unbind name)

theorem get?_unbindAll (freed : List String) (c : Context) (name : String) :
    Entries.get? (freed.foldl Context.unbind c).bindings name =
      if name ∈ freed then none else Entries.get? c.bindings name := by
  induction freed generalizing c with
  | nil => rfl
  | cons other rest ih =>
    rw [List.foldl_cons, ih, Context.unbind]
    by_cases hrest : name ∈ rest
    · simp [hrest]
    · by_cases hother : name = other
      · subst hother
        simp [hrest, Entries.get?_erase_self]
      · simp [hrest, hother, Entries.get?_erase_of_ne _ hother]

/-- A loop frees its names, which are bound nowhere around it. -/
theorem Models.leave (h : Models l.names names c) (hl : l.Nests loops)
    (hnames : Within loops names) :
    Models [] names (l.leave c) := by
  intro name _ hname
  rw [Loop.leave, ← Loop.names, get?_unbindAll]
  split
  · rename_i hfreed
    obtain ⟨hloops, hparameter, hdatabaseId⟩ := hl.fresh name hfreed
    by_contra hbound
    rcases hnames name (Ne.symm hbound) with hm | hm | hm
    · exact hloops hm
    · exact hparameter hm
    · exact hdatabaseId hm
  · rename_i hfreed
    exact h name hfreed hname

theorem Within.scope (h : Within loops names) (l : Loop) (key element : Argument) :
    Within (l :: loops) (l.scope names key element) := by
  intro name hname
  rw [get?_scope l names 0] at hname
  by_cases hl : name ∈ l.names
  · exact .inl (List.mem_append_left _ hl)
  · rw [Turn.value?_eq_none.mpr hl, Option.none_or] at hname
    exact (h name hname).imp_left (List.mem_append_right _)

end

-- ---------------------------------------------------------------------------
-- Renderings of expansions
-- ---------------------------------------------------------------------------

namespace Placed

/-- What a placeholder reads from its turns, and else from names. -/
def valueIn (names : Bindings) (p : Placed) : Argument :=
  ((property? p.content).bind fun property =>
    ((p.value? (Path.ofText property).head.name).or
      (Entries.get? names (Path.ofText property).head.name)).bind fun value =>
        (value.atIndex? (Path.ofText property).head.index).bind
          (·.along? (Path.ofText property).tail)).getD .null

theorem valueIn_within (names : Bindings) (p : Placed) (t : Turn) :
    ({ p with turns := p.turns ++ [t] } : Placed).valueIn names =
      p.valueIn (t.loop.scope names t.key t.element) := by
  have hvalue : ∀ name, ({ p with turns := p.turns ++ [t] } : Placed).value? name =
      (p.value? name).or (t.value? name) := by
    intro name
    rw [value?, List.findSome?_append, List.findSome?_singleton]
    rfl
  simp only [valueIn, hvalue, get?_scope t.loop names t.number, Option.or_assoc]

end Placed

structure Spelled (loops : List Loop) (hidden : List String) (names : Bindings) (c : Context)
    (happened : List Happening) (c' : Context) (passages : List Passage) : Prop where
  models : Models hidden names c'
  texts : ∃ fragments, c'.fragments = c.fragments ++ fragments ∧
    fragments.map marked = passages.map Passage.text
  values : (placed happened).map (Placed.valueIn names) = passages.flatMap Passage.values
  reads : ∀ p ∈ placed happened,
    ∃ name ∈ (p.turns.map (·.loop) ++ loops).flatMap Loop.names, Reads p.content name

section
variable {loops : List Loop} {hidden hidden' : List String} {names : Bindings} {l : Loop}
  {c c₁ c' : Context} {x y : List Happening} {ps qs : List Passage}

namespace Spelled

theorem of_unplaced (loops : List Loop) (hmodels : Models hidden names c')
    (hfragments : c'.fragments = c.fragments) (hplaced : placed x = []) :
    Spelled loops hidden names c x c' [] :=
  ⟨hmodels, ⟨[], by simp [hfragments], rfl⟩, by simp [hplaced], by simp [hplaced]⟩

theorem trans (hx : Spelled loops hidden names c x c₁ ps)
    (hy : Spelled loops hidden' names c₁ y c' qs) :
    Spelled loops hidden' names c (x ++ y) c' (ps ++ qs) := by
  obtain ⟨fs, hfs, htexts⟩ := hx.texts
  obtain ⟨gs, hgs, htexts'⟩ := hy.texts
  refine ⟨hy.models, ⟨fs ++ gs, ?_, ?_⟩, ?_, ?_⟩
  · rw [hgs, hfs, List.append_assoc]
  · rw [List.map_append, List.map_append, htexts, htexts']
  · rw [placed_append, List.map_append, List.flatMap_append, hx.values, hy.values]
  · rw [placed_append]
    exact List.forall_mem_append.mpr ⟨hx.reads, hy.reads⟩

theorem appendAll {texts : List String} (h : ∀ text ∈ texts, Exact loops text)
    (hmodels : Models hidden names c) :
    Spelled loops hidden names c (placementsOf texts) (c.appendAll texts)
      (texts.map (Passage.ofText names)) := by
  refine ⟨hmodels, ⟨texts, rfl, ?_⟩, ?_, ?_⟩
  · rw [List.map_map]
    rfl
  · rw [placed_placementsOf, List.map_map, List.map_flatMap, List.flatMap_map]
    rfl
  · intro p hp
    rw [placed_placementsOf, List.mem_map] at hp
    obtain ⟨content, hcontent, rfl⟩ := hp
    obtain ⟨text, htext, hcontent⟩ := List.mem_flatMap.mp hcontent
    exact (h text htext).reads content hcontent

theorem within {t : Turn}
    (h : Spelled (t.loop :: loops) [] (t.loop.scope names t.key t.element) c x c₁ ps) :
    (placed (x.map (·.within t))).map (Placed.valueIn names) = ps.flatMap Passage.values ∧
      ∀ p ∈ placed (x.map (·.within t)),
        ∃ name ∈ (p.turns.map (·.loop) ++ loops).flatMap Loop.names, Reads p.content name := by
  rw [placed_map_within]
  constructor
  · rw [← h.values, List.map_map]
    exact List.map_congr_left fun p _ => p.valueIn_within names t
  · intro p hp
    obtain ⟨p, hmem, rfl⟩ := List.mem_map.mp hp
    simpa using h.reads p hmem

end Spelled

/-- From any context in which its names are bound, a step leaves passages. -/
def Spells {α : Type} (loops : List Loop) (names : Bindings) (a : Rendering α) (told : Account)
    (passages : List Passage) : Prop :=
  ∀ ⦃c value c'⦄, Models [] names c → a.outcome c = (.ok value, c') →
    Spelled loops [] names c (told c) c' passages

def Passage.follow (separator : List Passage) (first : Bool) (bodies : List Passage) :
    List Passage :=
  let left := bodies.filter (!·.isBlank)
  if first then separated separator left else left.flatMap fun p => separator ++ [p]

theorem Passage.follow_cons (separator : List Passage) (first : Bool) (p : Passage)
    (rest : List Passage) :
    follow separator first (p :: rest) =
      (if p.isBlank then [] else (if first then [] else separator) ++ [p]) ++
        follow separator (first && p.isBlank) rest := by
  cases hblank : p.isBlank with
  | true => simp [follow, hblank]
  | false => cases first <;> simp [follow, hblank, separated]

namespace Spells

variable {α β : Type} {a : Rendering α} {b : Rendering β} {told next : Account}

theorem andThen (ha : Spells loops names a told ps) (hb : Spells loops names b next qs) :
    Spells loops names (a >>= fun _ => b) (fun c => told c ++ after a (fun _ => next) c)
      (ps ++ qs) := by
  intro c value c' hmodels h
  obtain ⟨_, c₁, hac, hbc⟩ := Action.outcome_bind_ok.mp h
  have hspelled := ha hmodels hac
  dsimp only
  rw [after_of_ok hac]
  exact hspelled.trans (hb hspelled.models hbc)

theorem returning (ha : Spells loops names a told ps) (value : β) :
    Spells loops names (a >>= fun _ => Pure.pure value) told ps := by
  intro c v c' hmodels h
  obtain ⟨_, c₁, hac, hpc⟩ := Action.outcome_bind_ok.mp h
  cases hpc
  exact ha hmodels hac

theorem turn {key element : Argument} {first first' : Bool}
    (hseparator : ∀ text ∈ l.separator.toList, Exact loops text)
    (hbody : Spells (l :: loops) (l.scope names key element) a told ps)
    (htells : Tells (l :: loops) a told) (hmodels : Models l.names names c)
    (h : (l.turn a first key element).outcome c = (.ok first', c')) :
    first' = (first && (Passage.join ps).isBlank) ∧
      Spelled loops l.names names c (l.turnAccount a told first key element c) c'
        (if (Passage.join ps).isBlank then []
          else (if first then [] else l.separator.toList.map (Passage.ofText names)) ++
            [Passage.join ps]) := by
  obtain ⟨value, c₁, text, hrun, htext, rfl, rfl⟩ := Loop.turn_ok.mp h
  have hspelled := hbody (hmodels.entered key element) hrun
  obtain ⟨hjoin, hcontents, hreplace, htake⟩ := (htells hrun).joined
  obtain ⟨fragments, hfragments, htexts⟩ := hspelled.texts
  rw [Loop.fragments_entered] at hjoin hcontents hreplace htake hfragments
  obtain ⟨hwhole, hrenamed, hmarked⟩ := hjoin.recontent (g := l.contentFor c.counter)
    fun content hm => Loop.plainContent_contentFor l _ (hjoin.plainContent content hm)
  change Whole false (l.bodyFor c.counter _) at hwhole
  change delimiters.contents (l.bodyFor c.counter _) = _ at hrenamed
  rw [← htext] at hwhole hrenamed
  -- New names stand between delimiters, so the text with markers for placeholders is the same.
  have hsame : marked text = (Passage.join ps).text := by
    have hdrop : c₁.fragments.drop c.fragments.length = fragments := by
      rw [hfragments, List.drop_left]
    rw [htext, marked, Loop.bodyFor, hmarked, hreplace, hdrop, Passage.join, ← htexts]
    rfl
  have hblank : Text.allBlank text.toList = (Passage.join ps).isBlank := by
    rw [Passage.isBlank, ← hsame, marked, hwhole.allBlank_replace]
    exact fun _ => by decide
  refine ⟨by rw [hblank], ?_⟩
  rw [Loop.turnAccount_ok told hrun htext, htake, Loop.kept, hblank]
  obtain ⟨hvalues, hreads⟩ := hspelled.within (t := ⟨l, c.counter, key, element⟩)
  cases hempty : (Passage.join ps).isBlank with
  | true =>
    -- The text is not kept, and no value is lost with it: blanks have no placeholder in them.
    have hnone : placed (told (l.entered key element c)) = [] := by
      have hneutral : ∀ ch ∈ text.toList, Placeholder.Neutral ch := fun ch hm =>
        Trim.neutral_of_isBlank (List.all_eq_true.mp (hblank.trans hempty) ch hm)
      obtain ⟨-, hnothing, -⟩ := Whole.of_neutral true hneutral
      rw [hnothing, hcontents] at hrenamed
      exact List.map_eq_nil_iff.mp (List.map_eq_nil_iff.mp hrenamed.symm)
    refine .of_unplaced loops hspelled.models.outside (by simp) ?_
    simp only [Bool.or_true, if_true, placed_append, placed_bindings, placed_map_within, hnone]
    rfl
  | false =>
    have hexact : ∀ text ∈ if first then [] else l.separator.toList, Exact loops text :=
      fun text hm => hseparator text (by cases first <;> simp_all)
    obtain ⟨-, -, hvalues', hreads'⟩ := Spelled.appendAll hexact hmodels
    simp only [Bool.or_false, Bool.false_eq_true, if_false]
    refine ⟨hspelled.models.outside, ⟨_, rfl, ?_⟩, ?_, ?_⟩
    · cases first <;> simp [hsame, Passage.ofText]
    · simp only [placed_append, placed_bindings, List.nil_append, List.map_append, hvalues,
        hvalues']
      cases first <;> simp [Passage.join]
    · simp only [placed_append, placed_bindings, List.nil_append]
      exact List.forall_mem_append.mpr ⟨hreads', hreads⟩

theorem turns {body : Bindings → List Passage}
    (hseparator : ∀ text ∈ l.separator.toList, Exact loops text)
    (hbody : ∀ key element, Spells (l :: loops) (l.scope names key element) a told
      (body (l.scope names key element)))
    (htells : Tells (l :: loops) a told) {first : Bool} {elements : List (Argument × Argument)}
    {u : Unit} (hmodels : Models l.names names c)
    (h : (l.forEach a first elements).outcome c = (.ok u, c')) :
    Spelled loops l.names names c (l.turnsAccount a told first elements c) c'
      (Passage.follow (l.separator.toList.map (Passage.ofText names)) first
        (elements.map fun (key, element) => Passage.join (body (l.scope names key element)))) := by
  induction elements generalizing first c with
  | nil =>
    cases h
    cases first <;> exact .of_unplaced loops hmodels rfl rfl
  | cons entry rest ih =>
    obtain ⟨key, element⟩ := entry
    rw [Loop.forEach_cons, Action.outcome_bind_ok] at h
    obtain ⟨first', c₁, hturn, hrest⟩ := h
    obtain ⟨rfl, hspelled⟩ := turn hseparator (hbody key element) htells hmodels hturn
    rw [Loop.turnsAccount, after_of_ok hturn, List.map_cons, Passage.follow_cons]
    exact hspelled.trans (ih hspelled.models hrest)

theorem elementsIn_eq (hl : l.Nests loops) (hmodels : Models [] names c)
    {elements : List (Argument × Argument)} (h : l.elements.outcome c = (.ok elements, c')) :
    l.elementsIn names = elements := by
  obtain ⟨collection, hcollection, helements, -⟩ := Loop.elements_ok.mp h
  obtain ⟨path, hpath, heval⟩ := hl.path
  rw [heval, hmodels.lookup hpath, ← heval] at hcollection
  rw [Loop.elementsIn, hcollection]
  dsimp only
  split at helements
  · rename_i hnull
    rw [helements.2]
    cases collection with
    | list => cases hnull
    | map => cases hnull
    | _ => rfl
  · rw [helements]
    rfl

theorem expand (body : Bindings → List Passage) (hl : l.Nests loops)
    (htexts : ∀ text ∈ l.opening.toList ++ l.closing.toList ++ l.separator.toList,
      Exact loops text)
    (hbody : ∀ key element, Spells (l :: loops) (l.scope names key element) a told
      (body (l.scope names key element)))
    (htells : Tells (l :: loops) a told) (hnames : Within loops names) :
    Spells loops names (l.expand a) (l.account a told) (l.passages names body) := by
  obtain ⟨hframe, hseparator⟩ := List.forall_mem_append.mp htexts
  obtain ⟨hopening, hclosing⟩ := List.forall_mem_append.mp hframe
  intro c value c' hmodels hc
  obtain ⟨elements, helements, hrest⟩ := Loop.expand_ok.mp hc
  obtain ⟨collection, hcollection, -⟩ := Loop.elements_ok.mp helements
  have hmet : Spelled loops [] names c [.collected (Loop.sizeOf collection)] c [] :=
    .of_unplaced loops hmodels rfl rfl
  rw [Loop.account, after_of_ok (Rendering.evaluate_ok.mpr ⟨hcollection, rfl⟩),
    after_of_ok helements, Loop.passages, elementsIn_eq hl hmodels helements]
  refine hmet.trans ?_
  rcases hrest with ⟨rfl, rfl⟩ | ⟨hne, c₁, hturns, rfl⟩
  · exact .of_unplaced loops hmodels rfl rfl
  · rw [if_neg (mt List.isEmpty_iff.mp hne)]
    -- From here until they are freed, the names of the loop are not those of the expansion.
    have hhidden : Models l.names names c := fun name _ => hmodels name List.not_mem_nil
    have hopened := Spelled.appendAll hopening hhidden
    have hturned := hopened.trans (turns hseparator hbody htells hopened.models hturns)
    have hclosed := hturned.trans (Spelled.appendAll hclosing hturned.models)
    have hfreed : Spelled loops [] names (c₁.appendAll l.closing.toList) (l.names.map .freed)
        (l.leave c₁) [] := by
      refine .of_unplaced loops (hturned.models.leave hl hnames) (fragments_unbindAll _ _) ?_
      rw [placed, List.filterMap_map]
      exact List.filterMap_eq_nil_iff.mpr fun _ _ => rfl
    have hall := hclosed.trans hfreed
    rw [List.append_nil] at hall
    cases elements with
    | nil => exact absurd rfl hne
    | cons element rest => exact hall

end Spells

namespace Node

mutual
theorem spells (node : Node) {loops : List Loop} {names : Bindings} (h : node.IsExpandable loops)
    (hnames : Within loops names) :
    Spells loops names node.render node.account (node.expansion names) := by
  cases node with
  | literal text =>
    intro c value c' hmodels hc
    cases hc
    have hspelled := Spelled.appendAll (List.forall_mem_singleton.mpr h) hmodels
    rwa [placementsOf, List.flatMap_singleton] at hspelled
  | sequence nodes => exact (spellsAll nodes h hnames).returning true
  | loop l body =>
    obtain ⟨hl, htexts, hbody⟩ := h
    exact (Spells.expand (fun names => body.expansion names) hl htexts
      (fun key element => spells body hbody (hnames.scope l key element))
      (tells body hbody.orderly) hnames).returning true
  | _ => cases h

theorem spellsAll (nodes : List Node) {loops : List Loop} {names : Bindings}
    (h : AllExpandable loops nodes) (hnames : Within loops names) :
    Spells loops names (renderAll nodes) (accountOfAll nodes) (expansionOfAll names nodes) := by
  cases nodes with
  | nil =>
    intro c value c' hmodels hc
    cases hc
    exact .of_unplaced loops hmodels rfl rfl
  | cons node rest => exact (spells node h.1 hnames).andThen (spellsAll rest h.2 hnames)
end

end Node

end

-- ---------------------------------------------------------------------------
-- Statements of expansions
-- ---------------------------------------------------------------------------

theorem within_start (argument : Argument) (databaseId : Option String) :
    Within [] (Context.start argument databaseId).bindings := by
  intro name hname
  by_contra hother
  exact hname (get?_start _ _ fun hstart => hother (.inr (List.mem_pair.mp hstart)))

/-- A placeholder that reads the name of a turn reads it as the names in scope have it. -/
theorem Placed.reads_eq {p : Placed} {name : String}
    (hname : name ∈ (p.turns.map (·.loop)).flatMap Loop.names) (hp : Reads p.content name)
    (names : Bindings) (bound : String → Option Argument) (handlers : HandlerRegistry)
    (argument : Argument) :
    p.reads bound handlers argument = .ok (p.valueIn names) := by
  obtain ⟨property, hproperty, hroot, -⟩ := hp.head
  cases hvalue : p.value? name with
  | none =>
    obtain ⟨_, hl, hmem⟩ := List.mem_flatMap.mp hname
    obtain ⟨t, ht, rfl⟩ := List.mem_map.mp hl
    exact absurd hmem (Placed.value?_eq_none.mp hvalue t ht)
  | some value => simp [Placed.reads, Placed.valueIn, hproperty, hroot, hvalue]

/-- Templates of loops and literal text are rendered as they are written out: the text is that of
their expansion, and its placeholders read the values there, in order. -/
theorem loops_bind_as_expanded {handlers : HandlerRegistry} {databaseId : Option String}
    {root : Node} {declared : ValueType} {argument : Argument} {s : BoundStatement}
    (hroot : root.IsExpandable [])
    (hs : boundFor handlers databaseId root declared argument = .ok s) :
    let whole := Passage.join (root.expansion (Context.start argument databaseId).bindings)
    s.sql = whole.text ∧ s.parameters.mapM (s.valueOf handlers) = .ok whole.values := by
  obtain ⟨value, c, _, hrender, -⟩ := boundFor_ok hs
  have htold := root.tells hroot.orderly hrender
  have hspelled := root.spells hroot (within_start argument databaseId) (fun _ _ _ => rfl) hrender
  obtain ⟨hsql, hparameters⟩ := parameters_read hs hrender htold
  dsimp only
  constructor
  · obtain ⟨fragments, hfragments, hwhole, -⟩ := htold.fragments
    obtain ⟨fragments', hfragments', htexts⟩ := hspelled.texts
    obtain rfl := List.append_cancel_left (hfragments.symm.trans hfragments')
    rw [hsql, Context.sql, hfragments, Passage.join, ← htexts]
    exact (Whole.join hwhole).2.2 _
  · rw [mapM_ok, Passage.join, ← hspelled.values, List.forall₂_map_right_iff]
    have hread := (List.forall₂_and_left _ _).mpr ⟨hspelled.reads, hparameters⟩
    refine hread.flip.imp fun parameter p h => ?_
    obtain ⟨⟨name, hname, hp⟩, hvalue⟩ := h
    rw [List.append_nil] at hname
    exact hvalue.trans (Placed.reads_eq hname hp _ _ _ _)

def topicWords : Node :=
  .loop { collection := "topics", item := some "t", index := some "i", opening := some "(",
          closing := some ")", separator := some "or" }
    (.sequence [.literal "t = #{t.name} and w in",
      .loop { collection := "t.words", item := some "w", separator := some "," }
        (.literal "#{w}/#{i}")])

def topics : Argument :=
  .map [("topics", .list [
    .map [("name", .ofText "a"), ("words", .list [.ofInt 3, .ofInt 4])],
    .map [("words", .list [])]])]

theorem topic_words_bind_as_expanded :
    topicWords.IsExpandable [] ∧ ∃ s, boundFor .standard none topicWords .map topics = .ok s ∧
      s.sql = "( t = ? and w in ?/? , ?/? or t = ? and w in )" ∧
      textsRead s = some ["\"a\"", "3", "0", "4", "0", "null"] ∧
      (let whole := Passage.join (topicWords.expansion (Context.start topics none).bindings)
      s.sql = whole.text ∧ s.parameters.mapM (s.valueOf .standard) = .ok whole.values) := by
  have htopics := Expression.evaluate_path
    (show Expression.tokens "topics" = .ok [.path "topics"] by with_unfolding_all rfl)
  have hwords := Expression.evaluate_path
    (show Expression.tokens "t.words" = .ok [.path "t.words"] by with_unfolding_all rfl)
  have hexpandable : topicWords.IsExpandable [] :=
    ⟨⟨by decide +kernel, by decide +kernel, "topics", by decide +kernel, htopics⟩,
      by decide +kernel, show Exact _ _ by decide +kernel,
      ⟨⟨by decide +kernel, by decide +kernel, "t.words", by decide +kernel, hwords⟩,
        by decide +kernel, show Exact _ _ by decide +kernel⟩, trivial⟩
  have hread : (boundFor .standard none topicWords .map topics).toOption.map
      (fun s => (s.sql, textsRead s)) =
      some ("( t = ? and w in ?/? , ?/? or t = ? and w in )",
        some ["\"a\"", "3", "0", "4", "0", "null"]) := by
    rw [boundFor_dynamic rfl]
    simp only [topicWords, rendered, Node.render, Node.renderAll, Loop.expand, Loop.elements,
      Rendering.evaluate, htopics, hwords]
    decide +kernel
  obtain ⟨s, hs, hboth⟩ := exists_ok_of_map hread
  obtain ⟨hsql, htexts⟩ := Prod.mk.inj hboth
  exact ⟨hexpandable, s, hs, hsql, htexts, loops_bind_as_expanded hexpandable hs⟩

def repeatedProperty : Node :=
  .loop { collection := "xs", item := some "x" } (.literal "#{x,property=x}")

/-- An option that names the property keeps the name of the loop, which is free in the end. -/
theorem repeated_property_reads_null :
    (Passage.join (repeatedProperty.expansion (Context.start pairs none).bindings)).values.map
        (·.toJson.text) = ["[7]", "[8]"] ∧
      (boundFor .standard none repeatedProperty .map pairs).toOption.bind textsRead =
        some ["null", "null"] := by
  have hxs := Expression.evaluate_path
    (show Expression.tokens "xs" = .ok [.path "xs"] by with_unfolding_all rfl)
  constructor
  · simp only [repeatedProperty, Node.expansion, Loop.passages, Loop.elementsIn, hxs]
    decide +kernel
  · rw [boundFor_dynamic rfl]
    simp only [repeatedProperty, rendered, Node.render, Loop.expand, Loop.elements,
      Rendering.evaluate, hxs]
    decide +kernel

end MappedSql.Template
