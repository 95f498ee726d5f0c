import MappedSql.Proofs.Connectives

/-!
# Clauses of segments under tests

A `WHERE` clause joins the conditions that hold, each with a connective in front, and loses the
first connective. A `SET` clause joins the assignments that are made, each with a comma after it,
and loses the last comma. Which segments there are left does not matter: each of them is a text
that no blank starts or ends, and so is any number of them after each other, so that what a trim
finds at the ends is what stands at the ends of the first and the last.
-/

namespace MappedSql

namespace Text

-- ---------------------------------------------------------------------------
-- Texts without blanks at their ends
-- ---------------------------------------------------------------------------

structure Tight (s : List Char) : Prop where
  head : ∃ c ∈ s.head?, isBlank c = false
  last : ∃ c ∈ s.getLast?, isBlank c = false

namespace Tight

variable {s s' : List Char}

theorem ne_nil (h : Tight s) : s ≠ [] := by
  obtain ⟨c, hc, -⟩ := h.head
  rintro rfl
  cases hc

theorem trim_eq (h : Tight s) : trim s = s := by
  obtain ⟨⟨c, hc, hblank⟩, d, hd, hblank'⟩ := h
  refine trim_eq_self (fun c' hc' => ?_) fun d' hd' => ?_
  · rwa [Option.mem_unique hc' hc]
  · rwa [Option.mem_unique hd' hd]

theorem of_trim (h : trim s = s) (hs : s ≠ []) : Tight s := by
  have hhead := head_trim s
  have hlast := getLast_trim s
  rw [h] at hhead hlast
  exact ⟨⟨s.head hs, List.head?_eq_some_head hs, hhead _ (List.head?_eq_some_head hs)⟩,
    ⟨s.getLast hs, List.getLast?_eq_some_getLast hs, hlast _ (List.getLast?_eq_some_getLast hs)⟩⟩

theorem append (hs : ∃ c ∈ s.head?, isBlank c = false) (hs' : ∃ c ∈ s'.getLast?, isBlank c = false)
    (between : List Char) : Tight (s ++ between ++ s') := by
  obtain ⟨c, hc, hblank⟩ := hs
  obtain ⟨d, hd, hblank'⟩ := hs'
  refine ⟨⟨c, ?_, hblank⟩, ⟨d, ?_, hblank'⟩⟩
  · rw [List.append_assoc, List.head?_append, hc]
    rfl
  · rw [List.getLast?_append, hd]
    rfl

theorem intercalate (separator : String) {texts : List String} (hne : texts ≠ [])
    (h : ∀ text ∈ texts, Tight text.toList) : Tight (separator.intercalate texts).toList := by
  induction texts with
  | nil => exact absurd rfl hne
  | cons text rest ih =>
    obtain ⟨htext, hrest⟩ := List.forall_mem_cons.mp h
    cases rest with
    | nil => simpa using htext
    | cons next rest =>
      rw [String.intercalate_cons_cons, String.toList_append, String.toList_append]
      exact append htext.head (ih (List.cons_ne_nil _ _) hrest).last _

end Tight

end Text

namespace Template

open Text (Tight asciiUpper)

-- ---------------------------------------------------------------------------
-- Segments
-- ---------------------------------------------------------------------------

/-- A literal text under a test, with the condition that is in it. -/
structure Segment where
  test : String
  text : String
  condition : String

namespace Segment

def node (s : Segment) : Node :=
  .when s.test (.literal s.text)

def holds (c : Context) (s : Segment) : Bool :=
  (Expression.evaluate c.bindings s.test).toOption.any Argument.isTruthy

structure Trimmed (s : Segment) : Prop where
  trimmed : Text.trim s.condition.toList = s.condition.toList
  text : s.condition ≠ ""

def Joined (s : Segment) : Prop :=
  ∃ connective blank, asciiUpper connective.toList ∈ ["AND".toList, "OR".toList] ∧
    blank ∈ [' ', '\n', '\r', '\t'] ∧
    s.text = connective ++ String.singleton blank ++ s.condition

structure Listed (s : Segment) : Prop where
  text : s.text = s.condition ++ ","
  head : s.condition.toList.head? ≠ some ','

/-- The texts after each other, with the first one's condition alone. -/
def whereText : List Segment → List String
  | [] => []
  | first :: rest => ["WHERE " ++ " ".intercalate (first.condition :: rest.map text)]

def setText : List Segment → List String
  | [] => []
  | held => ["SET " ++ ", ".intercalate (held.map condition)]

variable {s : Segment} {segments : List Segment} {c : Context}

theorem Trimmed.tight (h : s.Trimmed) : Tight s.condition.toList :=
  .of_trim h.trimmed (by simpa using h.text)

theorem outcome_node {value : Argument} (h : Expression.evaluate c.bindings s.test = .ok value) :
    s.node.render.outcome c =
      (.ok (s.holds c), c.appendAll (if s.holds c then [s.text] else [])) := by
  have hholds : (Rendering.holds s.test).outcome c = (.ok (s.holds c), c) := by
    rw [Rendering.holds_ok]
    exact ⟨value, h, by rw [holds, h]; rfl, rfl⟩
  rw [node, Node.render, Action.outcome_bind, hholds]
  cases s.holds c with
  | true => rfl
  | false => simp [Context.appendAll]

theorem outcome_renderAll
    (h : ∀ s ∈ segments, ∃ value, Expression.evaluate c.bindings s.test = .ok value) :
    (Node.renderAll (segments.map node)).outcome c =
      (.ok (), c.appendAll ((segments.filter (holds c)).map text)) := by
  induction segments generalizing c with
  | nil => simp [Node.renderAll, Context.appendAll]
  | cons s rest ih =>
    obtain ⟨⟨value, hs⟩, hrest⟩ := List.forall_mem_cons.mp h
    have hlater := ih (c := c.appendAll (if s.holds c then [s.text] else [])) hrest
    rw [List.map_cons, Node.renderAll, Action.outcome_bind, outcome_node hs]
    refine hlater.trans ?_
    change (_, (c.appendAll _).appendAll ((rest.filter (holds c)).map text)) = _
    rw [List.filter_cons]
    cases s.holds c with
    | true => simp [Context.appendAll]
    | false => simp [Context.appendAll]

theorem outcome_clause (t : Trim)
    (h : ∀ s ∈ segments, ∃ value, Expression.evaluate c.bindings s.test = .ok value) :
    (Node.trim t (.sequence (segments.map node))).render.outcome c =
      (.ok true, c.appendAll
        (if (t.apply (Context.join ((segments.filter (holds c)).map text))).isEmpty then []
          else [t.apply (Context.join ((segments.filter (holds c)).map text))])) := by
  rw [Node.render, Trim.around_ok]
  refine ⟨c.appendAll ((segments.filter (holds c)).map text), _, ?_, rfl, ?_⟩
  · rw [Node.render, Action.outcome_bind, outcome_renderAll h]
    rfl
  · simp [Context.appendAll]

-- ---------------------------------------------------------------------------
-- What a trim finds at the ends
-- ---------------------------------------------------------------------------

theorem Joined.tight (h : s.Joined) (htrimmed : s.Trimmed) : Tight s.text.toList := by
  obtain ⟨connective, blank, hconnective, -, htext⟩ := h
  have hhead : ∃ c ∈ connective.toList.head?, Text.isBlank c = false := by
    cases hlist : connective.toList with
    | nil => simp [hlist, asciiUpper] at hconnective
    | cons c rest =>
      refine ⟨c, rfl, ?_⟩
      rw [← Text.isBlank_toUpper]
      simp only [hlist, asciiUpper, List.map_cons] at hconnective
      rcases List.mem_pair.mp hconnective with hand | hor
      · rw [(List.cons_eq_cons.mp hand).1]
        decide
      · rw [(List.cons_eq_cons.mp hor).1]
        decide
  rw [htext, String.toList_append, String.toList_append]
  exact Tight.append hhead htrimmed.tight.last _

theorem elim_leading_whereClause {connective : String} {blank : Char}
    (hconnective : asciiUpper connective.toList ∈ ["AND".toList, "OR".toList])
    (hblank : blank ∈ [' ', '\n', '\r', '\t']) (after : List Char) :
    (Trim.whereClause.leading.find? (·.toList.isPrefixOf
      (asciiUpper connective.toList ++ asciiUpper [blank] ++ after))).elim [] String.toList =
        asciiUpper connective.toList ++ asciiUpper [blank] := by
  simp only [List.mem_cons, List.not_mem_nil, or_false] at hconnective hblank
  rcases hconnective with hand | hor
  · rw [hand]
    rcases hblank with rfl | rfl | rfl | rfl
    all_goals rfl
  · rw [hor]
    rcases hblank with rfl | rfl | rfl | rfl
    all_goals rfl

/-- The connective of the first segment is found at the start, with its blank. -/
theorem apply_whereClause {first : Segment} {rest : List Segment}
    (hjoined : ∀ s ∈ first :: rest, s.Joined) (htrimmed : ∀ s ∈ first :: rest, s.Trimmed) :
    Trim.whereClause.apply (Context.join ((first :: rest).map text)) =
      "WHERE " ++ " ".intercalate (first.condition :: rest.map text) := by
  have htexts : ∀ fragment ∈ (first :: rest).map text, Tight fragment.toList :=
    List.forall_mem_map.mpr fun s hs => (hjoined s hs).tight (htrimmed s hs)
  have hpart : Tight (Context.join ((first :: rest).map text)).toList :=
    .intercalate " " (List.cons_ne_nil _ _) htexts
  have hcore : Tight (" ".intercalate (first.condition :: rest.map text)).toList :=
    .intercalate " " (List.cons_ne_nil _ _) (List.forall_mem_cons.mpr
      ⟨(htrimmed first List.mem_cons_self).tight, (List.forall_mem_cons.mp htexts).2⟩)
  obtain ⟨connective, blank, hconnective, hblank, htext⟩ := hjoined first List.mem_cons_self
  have hjoin : Context.join ((first :: rest).map text) =
      connective ++ String.singleton blank ++
        " ".intercalate (first.condition :: rest.map text) := by
    rw [List.map_cons, htext, Context.join, String.intercalate_cons_append]
  have hparts : Trim.whereClause.Parts
      (Text.trim (Context.join ((first :: rest).map text)).toList) (connective.toList ++ [blank])
      (" ".intercalate (first.condition :: rest.map text)).toList [] := by
    rw [hpart.trim_eq, hjoin]
    refine ⟨by simp, ?_, rfl⟩
    rw [String.toList_append, String.toList_append, Text.asciiUpper_append, Text.asciiUpper_append,
      Text.asciiUpper_append, String.toList_singleton]
    exact (elim_leading_whereClause hconnective hblank _).symm
  have hframe : ∀ core, Trim.whereClause.frame core = "WHERE " ++ core := by
    simp [Trim.frame, Trim.whereClause]
  rw [hparts.apply (hpart.trim_eq.symm ▸ hpart.ne_nil), hcore.trim_eq, String.ofList_toList, hframe]

theorem join_listed {held : List Segment} (hne : held ≠ []) (hlisted : ∀ s ∈ held, s.Listed) :
    Context.join (held.map text) = ", ".intercalate (held.map condition) ++ "," := by
  induction held with
  | nil => exact absurd rfl hne
  | cons s rest ih =>
    obtain ⟨hs, hrest⟩ := List.forall_mem_cons.mp hlisted
    cases rest with
    | nil => simpa [Context.join] using hs.text
    | cons next rest =>
      have hlater := ih (List.cons_ne_nil _ _) hrest
      simp only [Context.join, List.map_cons] at hlater ⊢
      rw [String.intercalate_cons_cons, String.intercalate_cons_cons, hlater, hs.text]
      simp [String.append_assoc]

theorem find?_leading_setClause {s : List Char} (h : s.head? ≠ some ',') :
    Trim.setClause.leading.find? (·.toList.isPrefixOf (asciiUpper s)) = none := by
  refine List.find?_eq_none.mpr fun connective hmem hprefix => ?_
  obtain rfl := List.mem_singleton.mp hmem
  cases s with
  | nil => exact absurd hprefix (by decide)
  | cons c s =>
    obtain ⟨hcomma, -⟩ := List.cons_prefix_cons.mp (List.isPrefixOf_iff_prefix.mp hprefix)
    rcases Text.toUpper_cases c with hsame | ⟨hlo, -, hupper⟩
    · exact h (congrArg some (hsame.symm.trans hcomma.symm))
    · have hcode : ','.toNat = c.toNat - 32 := (congrArg Char.toNat hcomma).trans hupper
      have hvalue : ','.toNat = 44 := rfl
      omega

theorem find?_trailing_setClause (s : List Char) :
    (Trim.setClause.trailing.find? fun connective =>
      (Text.trim connective.toList).isSuffixOf (asciiUpper (s ++ [',']))) = some "," := by
  refine List.find?_cons_of_pos ?_
  rw [Text.asciiUpper_append, List.isSuffixOf_iff_suffix]
  exact List.suffix_append _ _

/-- No comma is found at the start, and the comma of the last segment at the end. -/
theorem apply_setClause {first : Segment} {rest : List Segment}
    (hlisted : ∀ s ∈ first :: rest, s.Listed) (htrimmed : ∀ s ∈ first :: rest, s.Trimmed) :
    Trim.setClause.apply (Context.join ((first :: rest).map text)) =
      "SET " ++ ", ".intercalate ((first :: rest).map condition) := by
  have hcore : Tight (", ".intercalate ((first :: rest).map condition)).toList :=
    .intercalate ", " (List.cons_ne_nil _ _)
      (List.forall_mem_map.mpr fun s hs => (htrimmed s hs).tight)
  have hjoin := join_listed (List.cons_ne_nil _ _) hlisted
  have hpart : Tight (Context.join ((first :: rest).map text)).toList := by
    have hcomma : ∃ c ∈ [','].getLast?, Text.isBlank c = false := ⟨',', rfl, by decide⟩
    rw [hjoin, String.toList_append]
    simpa using Tight.append hcore.head hcomma []
  have hparts : Trim.setClause.Parts
      (Text.trim (Context.join ((first :: rest).map text)).toList) []
      (", ".intercalate ((first :: rest).map condition)).toList [','] := by
    rw [hpart.trim_eq, hjoin]
    have hhead : (", ".intercalate ((first :: rest).map condition) ++ ",").toList.head? =
        first.condition.toList.head? := by
      obtain ⟨c, tail, hc⟩ :=
        List.exists_cons_of_ne_nil (htrimmed first List.mem_cons_self).tight.ne_nil
      cases rest <;> simp [hc]
    refine ⟨by simp, ?_, ?_⟩
    · rw [find?_leading_setClause (hhead ▸ (hlisted first List.mem_cons_self).head)]
      rfl
    · rw [find?_trailing_setClause]
      rfl
  have hframe : ∀ core, Trim.setClause.frame core = "SET " ++ core := by
    simp [Trim.frame, Trim.setClause]
  rw [hparts.apply (hpart.trim_eq.symm ▸ hpart.ne_nil), hcore.trim_eq, String.ofList_toList, hframe]

end Segment

/-- For any segments whose tests can be evaluated, a `WHERE` clause appends nothing or the texts of
those that hold, without the first connective and its blank, and a `SET` clause appends nothing or
the conditions of those that hold, with a comma between any two. -/
theorem clauses_assemble_segments {segments : List Segment} {c : Context}
    (htrimmed : ∀ s ∈ segments, s.Trimmed)
    (htests : ∀ s ∈ segments, ∃ value, Expression.evaluate c.bindings s.test = .ok value) :
    ((∀ s ∈ segments, s.Joined) →
      (Node.trim Trim.whereClause (.sequence (segments.map Segment.node))).render.outcome c =
        (.ok true, c.appendAll (Segment.whereText (segments.filter (Segment.holds c))))) ∧
    ((∀ s ∈ segments, s.Listed) →
      (Node.trim Trim.setClause (.sequence (segments.map Segment.node))).render.outcome c =
        (.ok true, c.appendAll (Segment.setText (segments.filter (Segment.holds c))))) := by
  have hheld : ∀ {P : Segment → Prop}, (∀ s ∈ segments, P s) →
      ∀ s ∈ segments.filter (Segment.holds c), P s :=
    fun h s hs => h s (List.mem_of_mem_filter hs)
  constructor
  · intro hjoined
    have hj := hheld hjoined
    have ht := hheld htrimmed
    rw [Segment.outcome_clause _ htests]
    cases hsegments : segments.filter (Segment.holds c) with
    | nil => rfl
    | cons first rest =>
      rw [hsegments] at hj ht
      rw [Segment.apply_whereClause hj ht, if_neg (by simp)]
      rfl
  · intro hlisted
    have hl := hheld hlisted
    have ht := hheld htrimmed
    rw [Segment.outcome_clause _ htests]
    cases hsegments : segments.filter (Segment.holds c) with
    | nil => rfl
    | cons first rest =>
      rw [hsegments] at hl ht
      rw [Segment.apply_setClause hl ht, if_neg (by simp)]
      rfl

def noteConditions : List Segment :=
  [⟨"draft", "and d = 1", "d = 1"⟩, ⟨"author", "Or\ta = 'and'", "a = 'and'"⟩,
   ⟨"word", "AND\nw = ?", "w = ?"⟩]

def noteAssignments : List Segment :=
  [⟨"author", "a = ?,", "a = ?"⟩, ⟨"draft", "d = 1,", "d = 1"⟩,
   ⟨"word", "w = f(1, 2),", "w = f(1, 2)"⟩]

def authored : Context :=
  Context.start (.map [("author", .ofText "ann"), ("word", .ofInt 1)]) none

theorem note_clauses_assemble_segments :
    (∀ s ∈ noteConditions ++ noteAssignments, s.Trimmed ∧
      ∃ value, Expression.evaluate authored.bindings s.test = .ok value) ∧
    (∀ s ∈ noteConditions, s.Joined) ∧ (∀ s ∈ noteAssignments, s.Listed) ∧
    (Node.trim Trim.whereClause (.sequence (noteConditions.map Segment.node))).render.outcome
      authored = (.ok true, authored.append "WHERE a = 'and' AND\nw = ?") ∧
    (Node.trim Trim.setClause (.sequence (noteAssignments.map Segment.node))).render.outcome
      authored = (.ok true, authored.append "SET a = ?, w = f(1, 2)") := by
  have hdraft := Expression.evaluate_path
    (show Expression.tokens "draft" = .ok [.path "draft"] by with_unfolding_all rfl)
  have hauthor := Expression.evaluate_path
    (show Expression.tokens "author" = .ok [.path "author"] by with_unfolding_all rfl)
  have hword := Expression.evaluate_path
    (show Expression.tokens "word" = .ok [.path "word"] by with_unfolding_all rfl)
  have htests : ∀ s ∈ noteConditions ++ noteAssignments,
      ∃ value, Expression.evaluate authored.bindings s.test = .ok value := by
    simp [noteConditions, noteAssignments, hdraft, hauthor, hword]
  have htrimmed : ∀ s ∈ noteConditions ++ noteAssignments, s.Trimmed := by
    have hparts : ∀ s ∈ noteConditions ++ noteAssignments,
        Text.trim s.condition.toList = s.condition.toList ∧ s.condition ≠ "" := by
      decide +kernel
    exact fun s hs => ⟨(hparts s hs).1, (hparts s hs).2⟩
  have hjoined : ∀ s ∈ noteConditions, s.Joined := by
    simp only [noteConditions, List.forall_mem_cons]
    exact ⟨⟨"and", ' ', by decide +kernel⟩, ⟨"Or", '\t', by decide +kernel⟩,
      ⟨"AND", '\n', by decide +kernel⟩, List.forall_mem_nil _⟩
  have hlisted : ∀ s ∈ noteAssignments, s.Listed := by
    have hparts : ∀ s ∈ noteAssignments,
        s.text = s.condition ++ "," ∧ s.condition.toList.head? ≠ some ',' := by
      decide +kernel
    exact fun s hs => ⟨(hparts s hs).1, (hparts s hs).2⟩
  have hwhere := (clauses_assemble_segments (fun s hs => htrimmed s (List.mem_append_left _ hs))
    fun s hs => htests s (List.mem_append_left _ hs)).1 hjoined
  have hset := (clauses_assemble_segments (fun s hs => htrimmed s (List.mem_append_right _ hs))
    fun s hs => htests s (List.mem_append_right _ hs)).2 hlisted
  refine ⟨fun s hs => ⟨htrimmed s hs, htests s hs⟩, hjoined, hlisted, ?_, ?_⟩
  · have hheld : noteConditions.filter (Segment.holds authored) = noteConditions.drop 1 := by
      simp only [noteConditions, List.filter_cons, Segment.holds, hdraft, hauthor, hword]
      rfl
    rw [hwhere, hheld]
    rfl
  · have hheld : noteAssignments.filter (Segment.holds authored) = noteAssignments.eraseIdx 1 := by
      simp only [noteAssignments, List.filter_cons, Segment.holds, hdraft, hauthor, hword]
      rfl
    rw [hset, hheld]
    rfl

end Template

end MappedSql
