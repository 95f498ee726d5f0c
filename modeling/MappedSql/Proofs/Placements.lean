import MappedSql.Proofs.Scopes
import MappedSql.Proofs.Trimming

/-!
# What placeholders read

The placeholders that are in the text of a rendering are those that its account tells of, in order,
each with the name of an element where a loop around it has given it one. So a placeholder reads
what the innermost turn around it bound its name to, and any other name is read when the whole
template is rendered.
-/

namespace MappedSql.Template

open Placeholder (delimiters Tidy Whole)

-- ---------------------------------------------------------------------------
-- Templates whose placeholders keep apart
-- ---------------------------------------------------------------------------

/-- In loops, where texts are read more than once, no delimiter is escaped. -/
structure Orderly (loops : List Loop) (text : String) : Prop where
  tidy : Tidy loops.isEmpty text
  clear : ∀ content ∈ delimiters.contents text, Clear loops content

instance (loops : List Loop) (text : String) : Decidable (Orderly loops text) :=
  decidable_of_iff
    (Tidy loops.isEmpty text ∧ ∀ content ∈ delimiters.contents text, Clear loops content)
    ⟨fun h => ⟨h.1, h.2⟩, fun h => ⟨h.tidy, h.clear⟩⟩

namespace Node

mutual
/-- A template without substitutions, in loops. All its texts are orderly there, no connective
cuts into a placeholder, loops name plainly, and the names of elements are left to loops. -/
def IsOrderly (loops : List Loop) : Node → Prop
  | .literal text => Orderly loops text
  | .substituted .. => False
  | .sequence nodes => AllOrderly loops nodes
  | .when _ body => IsOrderly loops body
  | .choose cases none => CasesOrderly loops cases
  | .choose cases (some node) => CasesOrderly loops cases ∧ IsOrderly loops node
  | .trim t body =>
    t.Harmless ∧ (∀ text ∈ t.opening.toList ++ t.closing.toList, Orderly loops text) ∧
      IsOrderly loops body
  | .loop l body =>
    l.NamesPlainly ∧
      (∀ text ∈ l.opening.toList ++ l.closing.toList ++ l.separator.toList, Orderly loops text) ∧
      IsOrderly (l :: loops) body
  | .bind name _ => ¬Loop.isElementName name
def AllOrderly (loops : List Loop) : List Node → Prop
  | [] => True
  | node :: rest => IsOrderly loops node ∧ AllOrderly loops rest
def CasesOrderly (loops : List Loop) : List (String × Node) → Prop
  | [] => True
  | (_, node) :: rest => IsOrderly loops node ∧ CasesOrderly loops rest
end

mutual
def decideOrderly (loops : List Loop) : (node : Node) → Decidable (IsOrderly loops node)
  | .literal text => inferInstanceAs (Decidable (Orderly loops text))
  | .substituted .. => isFalse id
  | .sequence nodes => decideAllOrderly loops nodes
  | .when _ body => decideOrderly loops body
  | .choose cases none => decideCasesOrderly loops cases
  | .choose cases (some node) =>
    have := decideCasesOrderly loops cases
    have := decideOrderly loops node
    inferInstanceAs (Decidable (_ ∧ _))
  | .trim t body =>
    have := decideOrderly loops body
    inferInstanceAs (Decidable (t.Harmless ∧ (∀ text ∈ _, Orderly loops text) ∧ _))
  | .loop l body =>
    have := decideOrderly (l :: loops) body
    inferInstanceAs (Decidable (l.NamesPlainly ∧ (∀ text ∈ _, Orderly loops text) ∧ _))
  | .bind name _ => inferInstanceAs (Decidable ¬Loop.isElementName name)
def decideAllOrderly (loops : List Loop) : (nodes : List Node) → Decidable (AllOrderly loops nodes)
  | [] => isTrue trivial
  | node :: rest =>
    have := decideOrderly loops node
    have := decideAllOrderly loops rest
    inferInstanceAs (Decidable (_ ∧ _))
def decideCasesOrderly (loops : List Loop) :
    (cases : List (String × Node)) → Decidable (CasesOrderly loops cases)
  | [] => isTrue trivial
  | (_, node) :: rest =>
    have := decideOrderly loops node
    have := decideCasesOrderly loops rest
    inferInstanceAs (Decidable (_ ∧ _))
end

instance (loops : List Loop) (node : Node) : Decidable (node.IsOrderly loops) :=
  decideOrderly loops node

end Node

-- ---------------------------------------------------------------------------
-- What an account tells of a text
-- ---------------------------------------------------------------------------

/-- What an account tells of a rendering in loops: also the placeholders that are in the fragments
it appended. -/
structure Told (loops : List Loop) (c : Context) (happened : List Happening) (c' : Context) : Prop
    extends Scoped loops c happened c' where
  fragments : ∃ fragments, c'.fragments = c.fragments ++ fragments ∧
    (∀ text ∈ fragments, Whole loops.isEmpty text) ∧
    fragments.flatMap delimiters.contents = (placed happened).map Placed.written

section
variable {loops : List Loop} {c c₁ c' : Context} {x y : List Happening}

namespace Told

theorem of_unplaced (h : Scoped loops c x c') (hfragments : c'.fragments = c.fragments)
    (hplaced : placed x = []) : Told loops c x c' :=
  { h with fragments := ⟨[], by simp [hfragments, hplaced]⟩ }

theorem refl (loops : List Loop) (c : Context) : Told loops c [] c :=
  .of_unplaced (.of_unplaced rfl rfl (fun _ => rfl) nofun) rfl rfl

theorem trans (hx : Told loops c x c₁) (hy : Told loops c₁ y c') : Told loops c (x ++ y) c' := by
  obtain ⟨fs, hfs, hwhole, hcontents⟩ := hx.fragments
  obtain ⟨gs, hgs, hwhole', hcontents'⟩ := hy.fragments
  refine { hx.toScoped.trans hy.toScoped with fragments := ⟨fs ++ gs, ?_, ?_, ?_⟩ }
  · rw [hgs, hfs, List.append_assoc]
  · exact fun text hm => (List.mem_append.mp hm).elim (hwhole text) (hwhole' text)
  · rw [List.flatMap_append, hcontents, hcontents', placed_append, List.map_append]

theorem appendAll {texts : List String} (h : ∀ text ∈ texts, Orderly loops text) (c : Context) :
    Told loops c (placementsOf texts) (c.appendAll texts) := by
  have hscoped : Scoped loops c (placementsOf texts) (c.appendAll texts) :=
    .placements (fun text hm => (h text hm).clear) rfl rfl
  refine { hscoped with fragments := ⟨texts, rfl, fun text hm => (h text hm).tidy.whole, ?_⟩ }
  exact (written_placementsOf texts).symm

theorem tested (loops : List Loop) (c : Context) (holds : Bool) : Told loops c [.tested holds] c :=
  .of_unplaced (.of_unplaced rfl rfl (fun _ => rfl) (by simp [Happening.change?])) rfl rfl

theorem collected (loops : List Loop) (c : Context) (size : Option Nat) :
    Told loops c [.collected size] c :=
  .of_unplaced (.of_unplaced rfl rfl (fun _ => rfl) (by simp [Happening.change?])) rfl rfl

theorem bind {name : String} (hname : ¬Loop.isElementName name) (loops : List Loop) (c : Context)
    (value : Argument) : Told loops c [.bound name value] (c.bind name value) := by
  refine .of_unplaced (.of_unplaced rfl rfl (fun other => get?_bind c name other value) ?_) rfl rfl
  · intro e he other n
    obtain rfl := List.mem_singleton.mp he
    have hne : name ≠ Loop.elementName other n := fun h =>
      hname (h ▸ Loop.isElementName_elementName other n)
    simp [Happening.change?, hne]

theorem unbind {name : String} (hname : ¬Loop.isElementName name) (loops : List Loop)
    (c : Context) : Told loops c [.freed name] (c.unbind name) := by
  refine .of_unplaced (.of_unplaced rfl rfl (fun other => ?_) ?_) rfl rfl
  · by_cases hother : name = other
    · subst hother
      simp [Context.unbind, Entries.get?_erase_self, boundAfter, Happening.change?]
    · simp [Context.unbind, Entries.get?_erase_of_ne _ (Ne.symm hother), boundAfter,
        Happening.change?, hother]
  · intro e he other n
    obtain rfl := List.mem_singleton.mp he
    have hne : name ≠ Loop.elementName other n := fun h =>
      hname (h ▸ Loop.isElementName_elementName other n)
    simp [Happening.change?, hne]

theorem unbindAll {names : List String} (hnames : ∀ name ∈ names, ¬Loop.isElementName name)
    (loops : List Loop) (c : Context) :
    Told loops c (names.map .freed) (names.foldl Context.unbind c) := by
  induction names generalizing c with
  | nil => exact refl loops c
  | cons name rest ih =>
    obtain ⟨hname, hrest⟩ := List.forall_mem_cons.mp hnames
    exact (unbind hname loops c).trans (ih hrest _)

theorem joined (h : Told loops c x c₁) :
    Whole loops.isEmpty (Context.join (c₁.fragments.drop c.fragments.length)) ∧
      delimiters.contents (Context.join (c₁.fragments.drop c.fragments.length)) =
        (placed x).map Placed.written ∧
      (∀ f, delimiters.replace f (Context.join (c₁.fragments.drop c.fragments.length)) =
        Context.join ((c₁.fragments.drop c.fragments.length).map (delimiters.replace f))) ∧
      c₁.fragments.take c.fragments.length = c.fragments := by
  obtain ⟨fs, hfs, hwhole, hcontents⟩ := h.fragments
  obtain ⟨hjoin, hjoined, hreplace⟩ := Whole.join hwhole
  rw [hfs, List.drop_left, List.take_left]
  exact ⟨hjoin, hjoined.trans hcontents, hreplace, rfl⟩

theorem around {α : Type} {t : Trim} {part : Rendering α} {told : Account} {value : α}
    (ht : t.Harmless)
    (htexts : ∀ text ∈ t.opening.toList ++ t.closing.toList, Orderly loops text)
    (hpart : ∀ {value c₁}, part.outcome c = (.ok value, c₁) → Told loops c (told c) c₁)
    (h : (t.around part).outcome c = (.ok value, c')) :
    Told loops c (t.account part told c) c' := by
  obtain ⟨c₁, text, hrun, htext, rfl⟩ := Trim.around_ok.mp h
  have htold := hpart hrun
  obtain ⟨hjoin, hcontents, -, htake⟩ := htold.joined
  obtain ⟨hopening, hclosing⟩ := List.forall_mem_append.mp htexts
  obtain ⟨hwhole, happly⟩ := Trim.whole_apply ht hjoin
    (fun text hm => (hopening text (Option.mem_toList.mpr hm)).tidy.whole)
    (fun text hm => (hclosing text (Option.mem_toList.mpr hm)).tidy.whole)
  rw [← htext] at hwhole happly
  have hscoped : ∀ texts : Option String, (∀ text ∈ texts.toList, Orderly loops text) →
      ∀ c : Context, Scoped loops c
        (placementsOf (if text.isEmpty then [] else texts.toList)) c := by
    intro texts htexts c
    refine .placements (fun text hm => ?_) rfl rfl
    split at hm
    · cases hm
    · exact (htexts text hm).clear
  simp only [Trim.account, Trim.framing_ok hrun htext, htake]
  refine { (((hscoped t.opening hopening c).trans htold.toScoped).trans
    (hscoped t.closing hclosing c₁)).ofFragments _ with fragments := ⟨_, rfl, ?_, ?_⟩ }
  · intro text' hm
    split at hm
    · cases hm
    · obtain rfl := List.mem_singleton.mp hm
      exact hwhole
  · rw [placed_append, placed_append, List.map_append, List.map_append, written_placementsOf,
      written_placementsOf, ← hcontents]
    cases hempty : text.isEmpty with
    | true =>
      obtain ⟨-, hnone, -⟩ := Whole.of_neutral true (a := "") (by simp)
      simpa [hempty, String.isEmpty_iff.mp hempty, hnone] using happly
    | false => simpa [hempty] using happly

theorem turn {α : Type} {l : Loop} {body : Rendering α} {told : Account} {first first' : Bool}
    {key element : Argument} (hl : l.NamesPlainly)
    (hseparator : ∀ text ∈ l.separator.toList, Orderly loops text)
    (hbody : ∀ {c value c₁}, body.outcome c = (.ok value, c₁) → Told (l :: loops) c (told c) c₁)
    (h : (l.turn body first key element).outcome c = (.ok first', c')) :
    Told loops c (l.turnAccount body told first key element c) c' := by
  obtain ⟨value, c₁, text, hrun, htext, -, rfl⟩ := Loop.turn_ok.mp h
  have htold := hbody hrun
  obtain ⟨hjoin, hcontents, -, htake⟩ := htold.joined
  rw [Loop.fragments_entered] at hjoin hcontents htake
  -- The text of the body, with the names of this element in it.
  obtain ⟨hwhole, hrenamed, -⟩ := hjoin.recontent (g := l.contentFor c.counter) fun content hm =>
    Loop.plainContent_contentFor l _ (hjoin.plainContent content hm)
  change Whole false (l.bodyFor c.counter _) at hwhole
  change delimiters.contents (l.bodyFor c.counter _) = _ at hrenamed
  rw [← htext] at hwhole hrenamed
  have hscoped : Scoped loops (l.entered key element c)
      (placementsOf (if first || Text.allBlank text.toList then [] else l.separator.toList))
      (l.entered key element c) := by
    refine .placements (fun text hm => ?_) rfl rfl
    split at hm
    · cases hm
    · exact (hseparator text hm).clear
  -- The turn binds its generated names before the body is rendered, which changes none of them.
  have hturn := ((Scoped.entered hl loops key element c).trans hscoped).within
    (t := ⟨l, c.counter, key, element⟩) htold.toScoped rfl hl ⟨Nat.le_refl _, by simp⟩
    fun name value hvalue before => by
      rw [boundAfter_append, Scoped.boundAfter_entered hl hvalue]
      exact boundAfter_of_unchanged change?_of_mem_placementsOf
  simp only [Loop.turnAccount_ok told hrun htext, htake]
  refine { hturn.ofFragments _ with fragments := ⟨_, rfl, ?_, ?_⟩ }
  · intro text' hm
    unfold Loop.kept at hm
    split at hm
    · cases hm
    · rcases List.mem_append.mp hm with hm | hm
      · split at hm
        · cases hm
        · exact (hseparator text' hm).tidy.whole
      · obtain rfl := List.mem_singleton.mp hm
        exact hwhole.mono
  · have hwritten : ((placed (told (l.entered key element c))).map fun p =>
        { p with turns := p.turns ++ [⟨l, c.counter, key, element⟩] }).map Placed.written =
        delimiters.contents text := by
      rw [hrenamed, hcontents, List.map_map, List.map_map]
      refine List.map_congr_left fun p _ => ?_
      simp [Placed.written]
    simp only [placed_append, placed_bindings, placed_map_within, List.nil_append, List.map_append,
      hwritten, written_placementsOf]
    cases hblank : Text.allBlank text.toList with
    | true =>
      have hneutral : ∀ ch ∈ text.toList, Placeholder.Neutral ch :=
        fun ch hm => Trim.neutral_of_isBlank (List.all_eq_true.mp hblank ch hm)
      obtain ⟨-, hcontents', -⟩ := Whole.of_neutral true hneutral
      simp [Loop.kept, hblank, hcontents']
    | false => cases first <;> simp [Loop.kept, hblank]

end Told

def Tells {α : Type} (loops : List Loop) (a : Rendering α) (told : Account) : Prop :=
  ∀ ⦃c value c'⦄, a.outcome c = (.ok value, c') → Told loops c (told c) c'

namespace Tells

variable {α β : Type} {a : Rendering α} {b : Rendering β} {told next : Account} {l : Loop}

theorem pure (loops : List Loop) (value : α) :
    Tells loops (Pure.pure value : Rendering α) fun _ => [] := by
  intro c v c' h
  cases h
  exact .refl loops c

theorem andThen (ha : Tells loops a told) (hb : Tells loops b next) :
    Tells loops (a >>= fun _ => b) (fun c => told c ++ after a (fun _ => next) c) := by
  intro c value c' h
  obtain ⟨_, c₁, hac, hbc⟩ := Action.outcome_bind_ok.mp h
  dsimp only
  rw [after_of_ok hac]
  exact (ha hac).trans (hb hbc)

theorem returning (ha : Tells loops a told) (value : β) :
    Tells loops (a >>= fun _ => Pure.pure value) told := by
  intro c v c' h
  obtain ⟨_, c₁, hac, hpc⟩ := Action.outcome_bind_ok.mp h
  cases hpc
  exact ha hac

theorem decided {test : String} {f : Bool → Rendering α} {told : Bool → Account}
    (h : ∀ holds, Tells loops (f holds) (told holds)) :
    Tells loops (Rendering.holds test >>= f)
      (after (Rendering.holds test) fun holds c => .tested holds :: told holds c) := by
  intro c value c' hc
  obtain ⟨holds, c₁, htest, hfc⟩ := Action.outcome_bind_ok.mp hc
  rw [after_of_ok htest]
  obtain ⟨-, -, -, rfl⟩ := Rendering.holds_ok.mp htest
  exact (Told.tested loops _ holds).trans (h holds hfc)

theorem around {t : Trim} (ht : t.Harmless)
    (htexts : ∀ text ∈ t.opening.toList ++ t.closing.toList, Orderly loops text)
    (h : Tells loops a told) : Tells loops (t.around a) (t.account a told) :=
  fun _ _ _ hc => Told.around ht htexts (fun hpart => h hpart) hc

theorem turns (hl : l.NamesPlainly) (hseparator : ∀ text ∈ l.separator.toList, Orderly loops text)
    (h : Tells (l :: loops) a told) (first : Bool) (elements : List (Argument × Argument)) :
    Tells loops (l.forEach a first elements) (l.turnsAccount a told first elements) := by
  induction elements generalizing first with
  | nil => exact .pure loops ()
  | cons entry rest ih =>
    obtain ⟨key, element⟩ := entry
    intro c value c' hc
    rw [Loop.forEach_cons, Action.outcome_bind_ok] at hc
    obtain ⟨first', c₁, hturn, hrest⟩ := hc
    rw [Loop.turnsAccount, after_of_ok hturn]
    exact (Told.turn hl hseparator (fun hbody => h hbody) hturn).trans (ih first' hrest)

theorem expand (hl : l.NamesPlainly)
    (htexts : ∀ text ∈ l.opening.toList ++ l.closing.toList ++ l.separator.toList,
      Orderly loops text)
    (h : Tells (l :: loops) a told) : Tells loops (l.expand a) (l.account a told) := by
  obtain ⟨hframe, hseparator⟩ := List.forall_mem_append.mp htexts
  obtain ⟨hopening, hclosing⟩ := List.forall_mem_append.mp hframe
  intro c value c' hc
  obtain ⟨elements, helements, hrest⟩ := Loop.expand_ok.mp hc
  obtain ⟨collection, hcollection, -⟩ := Loop.elements_ok.mp helements
  rw [Loop.account, after_of_ok (Rendering.evaluate_ok.mpr ⟨hcollection, rfl⟩),
    after_of_ok helements]
  refine (Told.collected loops c _).trans ?_
  rcases hrest with ⟨rfl, rfl⟩ | ⟨hne, c₁, hturns, rfl⟩
  · exact .refl loops c'
  · rw [if_neg (mt List.isEmpty_iff.mp hne)]
    exact (((Told.appendAll hopening c).trans (turns hl hseparator h true elements hturns)).trans
      (Told.appendAll hclosing c₁)).trans
      (Told.unbindAll (fun name hname => (hl name hname).2) loops _)

end Tells

namespace Node

mutual
theorem tells (node : Node) {loops : List Loop} (h : node.IsOrderly loops) :
    Tells loops node.render node.account := by
  cases node with
  | literal text =>
    intro c value c' hc
    cases hc
    have htold := Told.appendAll (List.forall_mem_singleton.mpr h) c
    rwa [placementsOf, List.flatMap_singleton] at htold
  | substituted text filter => cases h
  | sequence nodes => exact (tellsAll nodes h).returning true
  | when test body =>
    refine Tells.decided (f := fun holds => if holds then body.render >>= fun _ => pure true
      else pure false) fun holds => ?_
    cases holds with
    | true => exact (tells body h).returning true
    | false => exact .pure loops false
  | choose cases otherwise =>
    cases otherwise with
    | none => exact tellsFirst cases h (.pure loops false)
    | some node => exact tellsFirst cases h.1 (tells node h.2)
  | trim t body => exact (tells body h.2.2).around h.1 h.2.1
  | loop l body => exact ((tells body h.2.2).expand h.1 h.2.1).returning true
  | bind name expression =>
    intro c value c' hc
    obtain ⟨value, c₁, heval, hbind⟩ := Action.outcome_bind_ok.mp hc
    obtain ⟨-, rfl⟩ := Rendering.evaluate_ok.mp heval
    cases hbind
    rw [account, after_of_ok heval]
    exact .bind h loops c₁ value

theorem tellsAll (nodes : List Node) {loops : List Loop} (h : AllOrderly loops nodes) :
    Tells loops (renderAll nodes) (accountOfAll nodes) := by
  cases nodes with
  | nil => exact .pure loops ()
  | cons node rest => exact (tells node h.1).andThen (tellsAll rest h.2)

theorem tellsFirst (cases : List (String × Node)) {loops : List Loop}
    {otherwise : Rendering Bool} {told : Account} (h : CasesOrderly loops cases)
    (hotherwise : Tells loops otherwise told) :
    Tells loops (renderFirst cases otherwise) (accountOfFirst cases told) := by
  cases cases with
  | nil => exact hotherwise
  | cons first rest =>
    obtain ⟨test, node⟩ := first
    refine Tells.decided (f := fun holds => if holds then node.render
      else renderFirst rest otherwise) fun holds => ?_
    cases holds with
    | true => exact tells node h.1
    | false => exact tellsFirst rest h.2 hotherwise
end

mutual
theorem account_literal (node : Node) (c : Context) (h : node.isDynamic = false) :
    node.account c = placementsOf node.literals := by
  cases node with
  | literal text => rw [account, literals, placementsOf, List.flatMap_singleton]
  | sequence nodes => exact account_literals nodes c h
  | _ => cases h

theorem account_literals (nodes : List Node) (c : Context) (h : anyDynamic nodes = false) :
    accountOfAll nodes c = placementsOf (literalsOfAll nodes) := by
  cases nodes with
  | nil => rfl
  | cons node rest =>
    obtain ⟨hnode, hrest⟩ := Bool.or_eq_false_iff.mp h
    rw [accountOfAll, after_of_ok (outcome_literal node c hnode), account_literal node c hnode,
      account_literals rest _ hrest, literalsOfAll, placementsOf, placementsOf, placementsOf,
      List.flatMap_append]
end

end Node

end

-- ---------------------------------------------------------------------------
-- What is read
-- ---------------------------------------------------------------------------

/-- What a placeholder outside its own turns reads. -/
def boundAtEnd (root : Node) (start : Context) (name : String) : Option Argument :=
  if root.isDynamic then boundAfter (root.account start) name (Entries.get? start.bindings name)
  else none

theorem placed_literal {root : Node} {c : Context} (h : root.isDynamic = false) :
    ∀ p ∈ placed (root.account c), p.turns = [] := by
  rw [root.account_literal c h, placed_placementsOf]
  intro p hp
  obtain ⟨_, -, rfl⟩ := List.mem_map.mp hp
  rfl

section
variable {handlers : HandlerRegistry} {databaseId : Option String} {root : Node}
  {declared : ValueType} {argument : Argument} {s : BoundStatement}

theorem parameters_read {value : Bool} {c : Context}
    (hs : boundFor handlers databaseId root declared argument = .ok s)
    (hrender : root.render.outcome (Context.start argument databaseId) = (.ok value, c))
    (htold : Told [] (Context.start argument databaseId)
      (root.account (Context.start argument databaseId)) c) :
    s.sql = delimiters.replace (fun _ => Placeholder.marker) c.sql ∧
      List.Forall₂
        (fun p parameter => s.valueOf handlers parameter =
          p.reads (boundAtEnd root (Context.start argument databaseId)) handlers argument)
        (placed (root.account (Context.start argument databaseId))) s.parameters := by
  obtain ⟨_, _, type, hrender', hcompile, hadditional, rfl⟩ := boundFor_ok hs
  obtain ⟨-, rfl⟩ := Prod.mk.inj (hrender.symm.trans hrender')
  obtain ⟨fragments, hfragments, hwhole, hcontents⟩ := htold.fragments
  have hsql : delimiters.contents c.sql =
      (placed (root.account (Context.start s.argument databaseId))).map Placed.written := by
    rw [← hcontents, Context.sql, hfragments]
    exact (Whole.join hwhole).2.1
  obtain ⟨hresolved, hmarked⟩ := Resolver.compile_ok.mp hcompile
  rw [hsql, List.forall₂_map_left_iff] at hresolved
  have hbound : ∀ name, Entries.get? s.additional name =
      boundAtEnd root (Context.start s.argument databaseId) name := by
    intro name
    rw [hadditional, boundAtEnd]
    split
    · exact htold.bindings name
    · rfl
  have hturns : ∀ p ∈ placed (root.account (Context.start s.argument databaseId)), p.turns ≠ [] →
      ∀ name, ∃ before, boundAtEnd root (Context.start s.argument databaseId) name =
        boundAfter (root.account (Context.start s.argument databaseId)) name before := by
    intro p hp hne name
    cases hdynamic : root.isDynamic with
    | true => exact ⟨_, if_pos hdynamic⟩
    | false => exact absurd (placed_literal hdynamic p hp) hne
  have hsound := (List.forall₂_and_left _ _).mpr
    ⟨fun p hp => And.intro (htold.sound p hp) (hturns p hp), hresolved⟩
  refine ⟨hmarked, hsound.imp fun p parameter h => ?_⟩
  obtain ⟨⟨hp, hne⟩, hresolve⟩ := h
  exact hp.reads hbound hne (Resolver.property_of_resolve hresolve)

/-- Every placeholder reads what the innermost turn around it that binds its name bound it to. A
name that no turn around it binds is read as it is bound when the whole template is rendered, and
if it is not, the argument is read. -/
theorem placeholders_read_in_scope (hroot : root.IsOrderly [])
    (hs : boundFor handlers databaseId root declared argument = .ok s) :
    List.Forall₂
      (fun p parameter => s.valueOf handlers parameter =
        p.reads (boundAtEnd root (Context.start argument databaseId)) handlers argument)
      (placed (root.account (Context.start argument databaseId))) s.parameters := by
  obtain ⟨_, _, _, hrender, -⟩ := boundFor_ok hs
  exact (parameters_read hs hrender (root.tells hroot hrender)).2

end

def textsRead (s : BoundStatement) : Option (List String) :=
  (s.parameters.mapM (s.valueOf .standard)).toOption.map (List.map (·.toJson.text))

def groupedNotes : Node :=
  .sequence [.bind "k" "low", .literal "n < #{k}",
    .loop { collection := "groups", item := some "g", index := some "i", separator := some "or" }
      (.trim { leading := ["AND "] } (.sequence [.literal "and t = #{g.t}",
        .loop { collection := "g.words", item := some "w" }
          (.literal "and w = #{w}/#{i}/#{g.t}")])),
    .bind "k" "high"]

def noteGroups : Argument :=
  .map [("groups", .list [
      .map [("t", .ofInt 5), ("words", .list [.ofText "x", .ofText "y"])],
      .map [("t", .ofInt 6), ("words", .list [])]]),
    ("high", .ofInt 9), ("low", .ofInt 1)]

theorem note_groups_read_in_scope :
    groupedNotes.IsOrderly [] ∧ ∃ s, boundFor .standard none groupedNotes .map noteGroups = .ok s ∧
      textsRead s = some ["9", "5", "\"x\"", "0", "5", "\"y\"", "0", "5", "6"] ∧
      List.Forall₂
        (fun p parameter => s.valueOf .standard parameter =
          p.reads (boundAtEnd groupedNotes (Context.start noteGroups none)) .standard noteGroups)
        (placed (groupedNotes.account (Context.start noteGroups none))) s.parameters := by
  have horderly : groupedNotes.IsOrderly [] := by decide +kernel
  have hlow := Expression.evaluate_path
    (show Expression.tokens "low" = .ok [.path "low"] by with_unfolding_all rfl)
  have hhigh := Expression.evaluate_path
    (show Expression.tokens "high" = .ok [.path "high"] by with_unfolding_all rfl)
  have hgroups := Expression.evaluate_path
    (show Expression.tokens "groups" = .ok [.path "groups"] by with_unfolding_all rfl)
  have hwords := Expression.evaluate_path
    (show Expression.tokens "g.words" = .ok [.path "g.words"] by with_unfolding_all rfl)
  have hread : (boundFor .standard none groupedNotes .map noteGroups).toOption.map textsRead =
      some (some ["9", "5", "\"x\"", "0", "5", "\"y\"", "0", "5", "6"]) := by
    rw [boundFor_dynamic rfl]
    simp only [groupedNotes, rendered, Node.render, Node.renderAll, Loop.expand, Loop.elements,
      Rendering.evaluate, hlow, hhigh, hgroups, hwords]
    decide +kernel
  obtain ⟨s, hs, htexts⟩ := exists_ok_of_map hread
  exact ⟨horderly, s, hs, htexts, placeholders_read_in_scope horderly hs⟩

def pairs : Argument :=
  .map [("a", .ofInt 1), ("b", .ofInt 2), ("i", .ofInt 3),
    ("xs", .list [.list [.ofInt 7], .list [.ofInt 8]])]

def eachItem (body : Node) : Node :=
  .loop { collection := "xs", item := some "i" } body

/-- Binds a name again after its placeholder. -/
def reboundName : Node :=
  .sequence [.bind "x" "a", .literal "#{x}", .bind "x" "b"]

/-- Placeholders that do not read what was bound where their text was appended: first the names
that are bound again, in the same turn or later, or freed by a loop; then those that a template
that is not orderly gets wrong. -/
theorem bound_when_appended_is_not_read :
    (boundAfter ((reboundName.account (Context.start pairs none)).take 1) "x" none).map
        (·.toJson.text) = some "1" ∧
      (boundFor .standard none reboundName .map pairs).toOption.bind textsRead = some ["2"] ∧
      (boundFor .standard none (eachItem (.sequence [.bind "x" "i", .literal "#{x}"])) .map
        pairs).toOption.bind textsRead = some ["[8]", "[8]"] ∧
      (boundFor .standard none
        (.sequence [.bind "i" "a", .literal "#{i}", eachItem (.literal "-")]) .map
        pairs).toOption.bind textsRead = some ["3"] ∧
      (boundFor .standard none (eachItem (.literal "#{i[0]}")) .map pairs).toOption.bind textsRead =
        some ["null", "null"] ∧
      (boundFor .standard none (eachItem (.literal "#{i,property=i}")) .map pairs).toOption.bind
        textsRead = some ["3", "3"] ∧
      (boundFor .standard none (eachItem (.literal "\\#{i}")) .map pairs).toOption.bind textsRead =
        some ["3", "3"] ∧
      (boundFor .standard none
        (.loop { collection := "xs", item := some "a.b" } (.literal "#{a.b}")) .map
        pairs).toOption.bind textsRead = some ["null", "null"] ∧
      (boundFor .standard none
        (.sequence [eachItem (.trim { trailing := ["\x7d"] } (.literal "#{i}")),
          .literal "\x7d"]) .map pairs).toOption.bind textsRead = some ["null"] ∧
      (boundFor .standard none
        (eachItem (.sequence [.literal "#{i}", .bind "__frch_i_0" "a"])) .map
        pairs).toOption.bind textsRead = some ["1", "[8]"] := by
  have ha := Expression.evaluate_path
    (show Expression.tokens "a" = .ok [.path "a"] by with_unfolding_all rfl)
  have hb := Expression.evaluate_path
    (show Expression.tokens "b" = .ok [.path "b"] by with_unfolding_all rfl)
  have hi := Expression.evaluate_path
    (show Expression.tokens "i" = .ok [.path "i"] by with_unfolding_all rfl)
  have hxs := Expression.evaluate_path
    (show Expression.tokens "xs" = .ok [.path "xs"] by with_unfolding_all rfl)
  refine ⟨?_, ?_, ?_, ?_, ?_, ?_, ?_, ?_, ?_, ?_⟩
  · simp only [reboundName, Node.account, Node.accountOfAll, Node.render, Rendering.evaluate, ha,
      hb]
    decide +kernel
  all_goals
    rw [boundFor_dynamic rfl]
    simp only [reboundName, eachItem, rendered, Node.render, Node.renderAll, Loop.expand,
      Loop.elements, Rendering.evaluate, ha, hb, hi, hxs]
    decide +kernel

end MappedSql.Template
