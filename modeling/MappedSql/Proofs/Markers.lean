import MappedSql.Proofs.Characters

/-!
# Markers, parameters and values

Whatever a template decides on, each marker of a bound statement stands where a placeholder stood,
and each parameter and each value belongs to one marker, in order. That takes that no marker gets
into the text in another way: not with a text of the template, and not with a text that is
substituted.

The induction is on the template. All that a rendering appends is made from the texts of the
template, from the texts that are substituted on the way, and from what the rendering writes by
itself, in which there is no marker.
-/

namespace MappedSql.Template

open Text (Spelled)

-- ---------------------------------------------------------------------------
-- Texts
-- ---------------------------------------------------------------------------

/-- The texts of a loop. Its names get into the placeholders of its body. -/
def Loop.texts (l : Loop) : List String :=
  l.names ++ l.opening.toList ++ l.closing.toList ++ l.separator.toList

namespace Node

mutual
/-- The texts of a template that can get into what it is rendered to. -/
def texts : Node → List String
  | .literal text | .substituted text _ => [text]
  | .sequence nodes => textsOfAll nodes
  | .when _ body => texts body
  | .choose cases none => textsOfCases cases
  | .choose cases (some node) => textsOfCases cases ++ texts node
  | .trim t body => t.opening.toList ++ t.closing.toList ++ texts body
  | .loop l body => l.texts ++ texts body
  | .bind .. => []
def textsOfAll : List Node → List String
  | [] => []
  | node :: rest => texts node ++ textsOfAll rest
def textsOfCases : List (String × Node) → List String
  | [] => []
  | (_, node) :: rest => texts node ++ textsOfCases rest
end

end Node

abbrev Substituted := Context → List String

def substitutedAfter {α : Type} (a : Rendering α) (next : α → Substituted) : Substituted := fun c =>
  match a.outcome c with
  | (.ok value, c') => next value c'
  | (.error _, _) => []

theorem substitutedAfter_of_ok {α : Type} {a : Rendering α} {c c' : Context} {value : α}
    (h : a.outcome c = (.ok value, c')) (next : α → Substituted) :
    substitutedAfter a next c = next value c' := by
  rw [substitutedAfter, h]

namespace Loop

variable {α : Type}

def substitutedInTurns (l : Loop) (body : Rendering α) (inBody : Substituted) (first : Bool) :
    List (Argument × Argument) → Substituted
  | [], _ => []
  | (key, element) :: rest, c =>
    inBody (l.entered key element c) ++
      substitutedAfter (l.turn body first key element)
        (fun first => l.substitutedInTurns body inBody first rest) c

def substitutedTexts (l : Loop) (body : Rendering α) (inBody : Substituted) : Substituted :=
  substitutedAfter l.elements fun elements c =>
    l.substitutedInTurns body inBody true elements (c.appendAll l.opening.toList)

end Loop

namespace Node

mutual
def substitutedTexts : Node → Substituted
  | .literal _, _ | .bind .., _ => []
  | .substituted text filter, c =>
    substitutedAfter bindValue (fun _ c => (substitutions.contents text).filterMap fun expression =>
      (substitution c.bindings filter expression).toOption) c
  | .sequence nodes, c => substitutedInAll nodes c
  | .when test body, c =>
    substitutedAfter (Rendering.holds test)
      (fun holds c => if holds then substitutedTexts body c else []) c
  | .choose cases none, c => substitutedInFirst cases (fun _ => []) c
  | .choose cases (some node), c => substitutedInFirst cases (substitutedTexts node) c
  | .trim _ body, c => substitutedTexts body c
  | .loop l body, c => l.substitutedTexts body.render (substitutedTexts body) c
def substitutedInAll : List Node → Substituted
  | [], _ => []
  | node :: rest, c =>
    substitutedTexts node c ++ substitutedAfter node.render (fun _ => substitutedInAll rest) c
def substitutedInFirst : List (String × Node) → Substituted → Substituted
  | [], otherwise, c => otherwise c
  | (test, node) :: rest, otherwise, c =>
    substitutedAfter (Rendering.holds test)
      (fun holds c => if holds then substitutedTexts node c
        else substitutedInFirst rest otherwise c) c
end

end Node

-- ---------------------------------------------------------------------------
-- What a rendering appends
-- ---------------------------------------------------------------------------

theorem Loop.fragments_leave (l : Loop) (c : Context) :
    (l.leave c).fragments = c.fragments ++ l.closing.toList := by
  have hunbind : ∀ (names : List String) (c : Context),
      (names.foldl Context.unbind c).fragments = c.fragments := by
    intro names
    induction names with
    | nil => exact fun _ => rfl
    | cons name rest ih => exact fun c => ih (c.unbind name)
  exact hunbind _ _

theorem Node.fragments_bindValue {c c' : Context} (h : bindValue.outcome c = (.ok (), c')) :
    c'.fragments = c.fragments := by
  obtain ⟨_, _, ⟨⟩, hbind⟩ := Action.outcome_bind_ok.mp h
  dsimp only at hbind
  split at hbind
  · cases hbind
    rfl
  · split at hbind
    · cases hbind
      rfl
    · cases hbind
      rfl

/-- A rendering that keeps to characters, if the texts that it substitutes do. -/
def KeepsTo {α : Type} (P : Char → Prop) (a : Rendering α) (substituted : Substituted) : Prop :=
  ∀ ⦃c value c'⦄, a.outcome c = (.ok value, c') → (∀ text ∈ substituted c, Spelled P text) →
    (∀ fragment ∈ c.fragments, Spelled P fragment) → ∀ fragment ∈ c'.fragments, Spelled P fragment

namespace KeepsTo

variable {α β : Type} {P : Char → Prop} {a : Rendering α} {b : Rendering β}
  {substituted next : Substituted}

theorem pure (value : α) (substituted : Substituted) :
    KeepsTo P (Pure.pure value : Rendering α) substituted := by
  intro c v c' h _ hc
  cases h
  exact hc

theorem returning (ha : KeepsTo P a substituted) (value : β) :
    KeepsTo P (a >>= fun _ => Pure.pure value) substituted := by
  intro c v c' h hsubstituted hc
  obtain ⟨_, c₁, hac, hpure⟩ := Action.outcome_bind_ok.mp h
  cases hpure
  exact ha hac hsubstituted hc

theorem andThen (ha : KeepsTo P a substituted) (hb : KeepsTo P b next) :
    KeepsTo P (a >>= fun _ => b)
      (fun c => substituted c ++ substitutedAfter a (fun _ => next) c) := by
  intro c v c' h hsubstituted hc
  obtain ⟨_, c₁, hac, hbc⟩ := Action.outcome_bind_ok.mp h
  dsimp only at hsubstituted
  rw [substitutedAfter_of_ok hac] at hsubstituted
  obtain ⟨hfirst, hnext⟩ := List.forall_mem_append.mp hsubstituted
  exact hb hbc hnext (ha hac hfirst hc)

theorem decided {test : String} {f : Bool → Rendering α} {substituted : Bool → Substituted}
    (h : ∀ holds, KeepsTo P (f holds) (substituted holds)) :
    KeepsTo P (Rendering.holds test >>= f)
      (substitutedAfter (Rendering.holds test) substituted) := by
  intro c v c' hstep hsubstituted hc
  obtain ⟨holds, c₁, htest, hf⟩ := Action.outcome_bind_ok.mp hstep
  rw [substitutedAfter_of_ok htest] at hsubstituted
  obtain ⟨-, -, -, rfl⟩ := Rendering.holds_ok.mp htest
  exact h holds hf hsubstituted hc

theorem captured {fragments appended : List String} {n : Nat}
    (h : ∀ fragment ∈ fragments, Spelled P fragment)
    (happended : ∀ text ∈ appended, Spelled P text) :
    ∀ fragment ∈ fragments.take n ++ appended, Spelled P fragment :=
  List.forall_mem_append.mpr
    ⟨fun fragment hfragment => h fragment (List.mem_of_mem_take hfragment), happended⟩

theorem spelled_part (hP : AllowsGenerated P) {fragments : List String}
    (h : ∀ fragment ∈ fragments, Spelled P fragment) (n : Nat) :
    Spelled P (Context.join (fragments.drop n)) :=
  Context.spelled_join hP fun fragment hfragment => h fragment (List.mem_of_mem_drop hfragment)

theorem around (hP : AllowsGenerated P) {t : Trim}
    (htexts : ∀ text ∈ t.opening.toList ++ t.closing.toList, Spelled P text)
    (ha : KeepsTo P a substituted) : KeepsTo P (t.around a) substituted := by
  intro c v c' h hsubstituted hc
  obtain ⟨c₁, text, hac, rfl, rfl⟩ := Trim.around_ok.mp h
  have hc₁ := ha hac hsubstituted hc
  refine captured hc₁ ?_
  split
  · exact nofun
  · exact List.forall_mem_singleton.mpr (Trim.spelled_apply hP htexts (spelled_part hP hc₁ _))

theorem spelled_kept {l : Loop} {text : String} (htexts : ∀ text ∈ l.texts, Spelled P text)
    (htext : Spelled P text) (first : Bool) : ∀ kept ∈ l.kept first text, Spelled P kept := by
  obtain ⟨-, hseparator⟩ := List.forall_mem_append.mp htexts
  unfold Loop.kept
  split
  · exact nofun
  · refine List.forall_mem_append.mpr ⟨?_, List.forall_mem_singleton.mpr htext⟩
    split
    · exact nofun
    · exact hseparator

theorem turn (hP : AllowsGenerated P) {l : Loop} (htexts : ∀ text ∈ l.texts, Spelled P text)
    (ha : KeepsTo P a substituted) (first : Bool) (key element : Argument) :
    KeepsTo P (l.turn a first key element) (fun c => substituted (l.entered key element c)) := by
  intro c v c' h hsubstituted hc
  obtain ⟨_, c₁, text, hac, rfl, -, rfl⟩ := Loop.turn_ok.mp h
  have hentered : ∀ fragment ∈ (l.entered key element c).fragments, Spelled P fragment := by
    rwa [Loop.fragments_entered]
  have hc₁ := ha hac hsubstituted hentered
  have hnames : ∀ name ∈ l.names, Spelled P name :=
    fun name hname => htexts name (by simp [Loop.texts, hname])
  have htext := Loop.spelled_bodyFor hP hnames c.counter (spelled_part hP hc₁ c.fragments.length)
  exact captured hc₁ (spelled_kept htexts htext first)

theorem turns (hP : AllowsGenerated P) {l : Loop} (htexts : ∀ text ∈ l.texts, Spelled P text)
    (ha : KeepsTo P a substituted) (first : Bool) (elements : List (Argument × Argument)) :
    KeepsTo P (l.forEach a first elements) (l.substitutedInTurns a substituted first elements) := by
  induction elements generalizing first with
  | nil => exact .pure () _
  | cons entry rest ih =>
    obtain ⟨key, element⟩ := entry
    intro c v c' h hsubstituted hc
    rw [Loop.forEach_cons, Action.outcome_bind_ok] at h
    obtain ⟨first', c₁, hturn, hrest⟩ := h
    rw [Loop.substitutedInTurns, substitutedAfter_of_ok hturn] at hsubstituted
    obtain ⟨hfirst, hnext⟩ := List.forall_mem_append.mp hsubstituted
    exact ih first' hrest hnext (turn hP htexts ha first key element hturn hfirst hc)

theorem expand (hP : AllowsGenerated P) {l : Loop} (htexts : ∀ text ∈ l.texts, Spelled P text)
    (ha : KeepsTo P a substituted) :
    KeepsTo P (l.expand a) (l.substitutedTexts a substituted) := by
  intro c v c' h hsubstituted hc
  obtain ⟨elements, helements, ⟨rfl, rfl⟩ | ⟨-, c₁, hturns, rfl⟩⟩ := Loop.expand_ok.mp h
  · exact hc
  · rw [Loop.substitutedTexts, substitutedAfter_of_ok helements] at hsubstituted
    have hopened : ∀ fragment ∈ (c.appendAll l.opening.toList).fragments, Spelled P fragment :=
      List.forall_mem_append.mpr ⟨hc, fun text htext => htexts text (by simp_all [Loop.texts])⟩
    have hc₁ := turns hP htexts ha true elements hturns hsubstituted hopened
    rw [Loop.fragments_leave]
    exact List.forall_mem_append.mpr ⟨hc₁, fun text htext => htexts text (by simp_all [Loop.texts])⟩

end KeepsTo

namespace Node

variable {P : Char → Prop}

theorem keepsTo_renderText (text : String) (filter : Option Filter) (htext : Spelled P text) :
    KeepsTo P (renderText text filter) (Node.substituted text filter).substitutedTexts := by
  intro c v c' h hsubstituted hc
  obtain ⟨_, c₁, hbind, hrest⟩ := Action.outcome_bind_ok.mp h
  obtain ⟨_, _, ⟨⟩, hreplace⟩ := Action.outcome_bind_ok.mp hrest
  rw [Node.substitutedTexts, substitutedAfter_of_ok hbind] at hsubstituted
  split at hreplace
  · rename_i replaced hreplaced
    cases hreplace
    have hspelled := Text.Delimiters.spelled_replaceM htext hreplaced fun expression hmem t ht =>
      hsubstituted t (List.mem_filterMap.mpr ⟨expression, hmem, by rw [ht]; rfl⟩)
    refine List.forall_mem_append.mpr ⟨?_, List.forall_mem_singleton.mpr hspelled⟩
    rwa [fragments_bindValue hbind]
  · cases hreplace

mutual
theorem keepsTo (hP : AllowsGenerated P) (node : Node) (h : ∀ text ∈ node.texts, Spelled P text) :
    KeepsTo P node.render node.substitutedTexts := by
  cases node with
  | literal text =>
    intro c v c' hrender _ hc
    cases hrender
    exact List.forall_mem_append.mpr ⟨hc, h⟩
  | substituted text filter =>
    exact (keepsTo_renderText text filter (List.forall_mem_singleton.mp h)).returning true
  | sequence nodes => exact (keepsToAll hP nodes h).returning true
  | when test body =>
    refine KeepsTo.decided (f := fun holds => if holds then body.render >>= fun _ => pure true
      else pure false) fun holds => ?_
    cases holds with
    | true => exact (keepsTo hP body h).returning true
    | false => exact .pure false _
  | choose cases otherwise =>
    cases otherwise with
    | none => exact keepsToFirst hP cases h (.pure false _)
    | some node =>
      obtain ⟨hcases, hnode⟩ := List.forall_mem_append.mp h
      exact keepsToFirst hP cases hcases (keepsTo hP node hnode)
  | trim t body =>
    obtain ⟨htexts, hbody⟩ := List.forall_mem_append.mp h
    exact (keepsTo hP body hbody).around hP htexts
  | loop l body =>
    obtain ⟨htexts, hbody⟩ := List.forall_mem_append.mp h
    exact ((keepsTo hP body hbody).expand hP htexts).returning true
  | bind name expression =>
    intro c v c' hrender _ hc
    obtain ⟨value, c₁, hevaluate, hbind⟩ := Action.outcome_bind_ok.mp hrender
    obtain ⟨-, rfl⟩ := Rendering.evaluate_ok.mp hevaluate
    cases hbind
    exact hc

theorem keepsToAll (hP : AllowsGenerated P) (nodes : List Node)
    (h : ∀ text ∈ textsOfAll nodes, Spelled P text) :
    KeepsTo P (renderAll nodes) (substitutedInAll nodes) := by
  cases nodes with
  | nil => exact .pure () _
  | cons node rest =>
    obtain ⟨hnode, hrest⟩ := List.forall_mem_append.mp h
    exact (keepsTo hP node hnode).andThen (keepsToAll hP rest hrest)

theorem keepsToFirst (hP : AllowsGenerated P) (cases : List (String × Node))
    {otherwise : Rendering Bool} {substituted : Substituted}
    (h : ∀ text ∈ textsOfCases cases, Spelled P text)
    (hotherwise : KeepsTo P otherwise substituted) :
    KeepsTo P (renderFirst cases otherwise) (substitutedInFirst cases substituted) := by
  cases cases with
  | nil => exact hotherwise
  | cons first rest =>
    obtain ⟨test, node⟩ := first
    obtain ⟨hnode, hrest⟩ := List.forall_mem_append.mp h
    refine KeepsTo.decided (f := fun holds => if holds then node.render
      else renderFirst rest otherwise) fun holds => ?_
    cases holds with
    | true => exact keepsTo hP node hnode
    | false => exact keepsToFirst hP rest hrest hotherwise
end

end Node

-- ---------------------------------------------------------------------------
-- Markers
-- ---------------------------------------------------------------------------

/-- All characters of a rendered text come from the texts of its template, from the texts that are
substituted, or are written by the rendering itself. -/
theorem spelled_rendered {P : Char → Prop} (hP : AllowsGenerated P) {root : Node}
    {argument : Argument} {databaseId : Option String} {text : String} {bindings : Bindings}
    (h : rendered root argument databaseId = .ok (text, bindings))
    (htexts : ∀ t ∈ root.texts, Spelled P t)
    (hsubstituted : ∀ t ∈ root.substitutedTexts (Context.start argument databaseId), Spelled P t) :
    Spelled P text := by
  unfold rendered at h
  split at h
  · rename_i value c hrender
    cases h
    exact Context.spelled_join hP (root.keepsTo hP htexts hrender hsubstituted nofun)
  · cases h

end MappedSql.Template

namespace MappedSql

namespace Text

theorem Spanned.toList_fill_const (mark : String) (t : Spanned) :
    (t.fill fun _ => mark).toList = mark.toList.intercalate (t.literals.map String.toList) := by
  obtain ⟨start, spans⟩ := t
  induction spans generalizing start with
  | nil => simp [fill, literals]
  | cons span rest ih =>
    obtain ⟨content, after⟩ := span
    have hstep : fill (fun _ => mark) ⟨start, (content, after) :: rest⟩ =
        start ++ mark ++ fill (fun _ => mark) ⟨after, rest⟩ := by
      simp [fill, String.append_assoc]
    rw [hstep, String.toList_append, String.toList_append, ih, literals, literals]
    simp only [List.map_cons, List.intercalate_cons_cons]

/-- A character that stands between parts only is there once less than there are parts. -/
theorem count_intercalate {c : Char} {parts : List (List Char)} (h : ∀ part ∈ parts, c ∉ part) :
    ([c].intercalate parts).count c = parts.length - 1 := by
  induction parts with
  | nil => rfl
  | cons part rest ih =>
    obtain ⟨hpart, hrest⟩ := List.forall_mem_cons.mp h
    cases rest with
    | nil => simpa using List.count_eq_zero.mpr hpart
    | cons next rest =>
      rw [List.intercalate_cons_cons, List.count_append, List.count_append, ih hrest,
        List.count_eq_zero.mpr hpart]
      simp
      omega

end Text

open Template Text

/-- Where there is no marker in the texts of a template and in those that are substituted, every
marker of the bound statement stands where a placeholder stood: cut at its markers, the SQL is the
literal text around the placeholders of the rendered text. For each marker there is one parameter,
which the content of its placeholder resolves to, and one value, which is null for a parameter that
is only written. -/
theorem markers_stand_for_placeholders {handlers : HandlerRegistry} {databaseId : Option String}
    {root : Node} {argumentType : ValueType} {argument : Argument} {s : BoundStatement}
    (h : boundFor handlers databaseId root argumentType argument = .ok s)
    (htexts : ∀ text ∈ root.texts, '?' ∉ text.toList)
    (hsubstituted : ∀ text ∈ root.substitutedTexts (Context.start argument databaseId),
      '?' ∉ text.toList) :
    ∃ text bindings, rendered root argument databaseId = .ok (text, bindings) ∧
      s.sql.toList.splitOn '?' =
        (Placeholder.delimiters.spanned text).literals.map String.toList ∧
      s.sql.toList.count '?' = s.parameters.length ∧
      List.Forall₂
        (fun content p =>
          (resolverFor handlers root argumentType argument bindings).resolve content = .ok p)
        (Placeholder.delimiters.spanned text).contents s.parameters ∧
      ∀ values, s.values handlers = .ok values →
        values.length = s.sql.toList.count '?' ∧
        List.Forall₂ (fun p value => s.bind handlers p = .ok value ∧
          (p.mode = .output → value = .null)) s.parameters values := by
  -- A rendering writes no marker by itself, so there is none in the literal text around the
  -- placeholders.
  have hallowed : AllowsGenerated (· ≠ '?') := by
    refine ⟨by decide, List.forall_mem_ne'.mpr (by decide), List.forall_mem_ne'.mpr (by decide), ?_⟩
    rintro c hdigit rfl
    exact absurd hdigit (by decide)
  obtain ⟨text, bindings, hrendered, hcompile, -⟩ := boundFor_compiles h
  obtain ⟨hresolved, hsql⟩ := Resolver.compile_ok.mp hcompile
  have hspelled : Spelled (· ≠ '?') text := spelled_rendered hallowed hrendered
    (fun text ht => List.forall_mem_ne'.mpr (htexts text ht))
    fun text ht => List.forall_mem_ne'.mpr (hsubstituted text ht)
  have hliterals : ∀ part ∈ (Placeholder.delimiters.spanned text).literals.map String.toList,
      '?' ∉ part := List.forall_mem_map.mpr fun literal hl =>
    List.forall_mem_ne'.mp ((Delimiters.spelled_spanned hspelled).1 literal hl)
  have hmarked : s.sql.toList =
      ['?'].intercalate ((Placeholder.delimiters.spanned text).literals.map String.toList) := by
    rw [show s.sql = _ from hsql, Delimiters.replace_eq_fill, Spanned.toList_fill_const]
    rfl
  rw [← Delimiters.contents_spanned] at hresolved
  have hcount : s.sql.toList.count '?' = s.parameters.length := by
    rw [hmarked, count_intercalate hliterals, ← hresolved.length_eq]
    simp [Spanned.literals, Spanned.contents]
  refine ⟨text, bindings, hrendered, ?_, hcount, hresolved, fun values hvalues => ?_⟩
  · rw [hmarked]
    exact List.splitOn_intercalate '?' hliterals (List.cons_ne_nil _ _)
  · have hbound := mapM_ok.mp hvalues
    refine ⟨by rw [hcount, hbound.length_eq], hbound.imp fun p value hvalue => ⟨hvalue, ?_⟩⟩
    intro hmode
    rw [BoundStatement.bind, if_pos hmode] at hvalue
    exact (pure_ok.mp hvalue).symm

def listing : Node :=
  .sequence [
    .substituted
      "select $\x7bcolumns\x7d from t where k = \\#\x7bk\x7d and #\x7bn,mode=Out\x7d < n and m in"
      none,
    .loop { collection := "xs", item := some "x", opening := some "(", closing := some ")",
            separator := some "," } (.literal "#\x7bx\x7d")]

def listed : Argument :=
  .map [("columns", .ofText "n, m"), ("xs", .list [.ofInt 3, .ofInt 4])]

theorem listing_markers_stand_for_placeholders :
    (∀ text ∈ listing.texts, '?' ∉ text.toList) ∧
      (∀ text ∈ listing.substitutedTexts (Context.start listed none), '?' ∉ text.toList) ∧
      ∃ s, boundFor .standard none listing .map listed = .ok s ∧
        s.sql = "select n, m from t where k = #\x7bk\x7d and ? < n and m in ( ? , ? )" ∧
        (s.values .standard).toOption.map (List.map Value.display) = some ["null", "3", "4"] ∧
        s.sql.toList.count '?' = s.parameters.length := by
  have hcolumns := Expression.evaluate_path
    (show Expression.tokens "columns" = .ok [.path "columns"] by with_unfolding_all rfl)
  have hxs := Expression.evaluate_path
    (show Expression.tokens "xs" = .ok [.path "xs"] by with_unfolding_all rfl)
  have hpieces : Node.substitutions.pieces
      "select $\x7bcolumns\x7d from t where k = \\#\x7bk\x7d and #\x7bn,mode=Out\x7d < n and m in" =
      [.literal "select ".toList, .span "columns".toList,
        .literal " from t where k = \\#\x7bk\x7d and #\x7bn,mode=Out\x7d < n and m in".toList] := by
    decide +kernel
  have htexts : ∀ text ∈ listing.texts, '?' ∉ text.toList := by decide +kernel
  have hsubstituted : ∀ text ∈ listing.substitutedTexts (Context.start listed none),
      '?' ∉ text.toList := by
    simp only [listing, Node.substitutedTexts, Node.substitutedInAll, Loop.substitutedTexts,
      Loop.expand, Loop.elements, Rendering.evaluate, hxs, Delimiters.contents, hpieces,
      Node.substitution, Node.render, Node.renderText, Delimiters.replaceM, List.mapM_cons,
      List.mapM_nil, Piece.replaceM, String.ofList_toList, hcolumns, List.filterMap_cons,
      List.filterMap_nil, Piece.content?]
    decide +kernel
  have hread : (boundFor .standard none listing .map listed).toOption.map (fun s =>
      (s.sql, (s.values .standard).toOption.map (List.map Value.display))) =
      some ("select n, m from t where k = #\x7bk\x7d and ? < n and m in ( ? , ? )",
        some ["null", "3", "4"]) := by
    rw [boundFor_dynamic rfl]
    simp only [listing, rendered, Node.render, Node.renderAll, Node.renderText, Loop.expand,
      Loop.elements, Rendering.evaluate, hxs, Delimiters.replaceM, hpieces, List.mapM_cons,
      List.mapM_nil, Piece.replaceM, Node.substitution, String.ofList_toList, hcolumns]
    decide +kernel
  obtain ⟨s, hs, hparts⟩ := exists_ok_of_map hread
  obtain ⟨hsql, hvalues⟩ := Prod.mk.inj hparts
  obtain ⟨_, _, -, -, hcount, -⟩ := markers_stand_for_placeholders hs htexts hsubstituted
  exact ⟨htexts, hsubstituted, s, hs, hsql, hvalues, hcount⟩

end MappedSql
