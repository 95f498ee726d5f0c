import MappedSql.Proofs.Outcomes
import MappedSql.Proofs.Slices
import MappedSql.Proofs.Spans

/-!
# Scanning a text by positions

A text is searched by positions, and its parts are taken out of it as slices. Scanning so does what
`Delimiters.replaceM` does, unless an opening delimiter directly follows a delimiter that ends in a
backslash: there it asks for a part that ends before it starts.

Two searches share the positions. Each of them goes on from where the other one stopped, so one
fact about the position carries the whole scan: the text before it is empty or ends with a
delimiter, and the last character of that text decides whether what follows is escaped.
-/

namespace MappedSql.Text

open String (utf8Len)

-- ---------------------------------------------------------------------------
-- Scanning
-- ---------------------------------------------------------------------------

/-- The position of the first mark that stands at a position or after it. Where there is no
character boundary, nothing is found. -/
def findFrom (mark : List Char) (text : String) (start : Nat) : Option Nat :=
  match slice text start text.utf8ByteSize with
  | .error _ => none
  | .ok rest => (cut mark rest.toList).map fun (before, _) => start + utf8Len before

/-- Whether a backslash stands before a position. None does that is not after `start`. -/
def escapedAt (text : String) (start position : Nat) : Except Fault Bool :=
  if start < position then (· == '\\'.toUInt8) <$> byteAt text (position - 1) else .ok false

theorem le_of_findFrom {mark : List Char} {text : String} {start position : Nat}
    (h : findFrom mark text start = some position) :
    start ≤ position ∧ position + utf8Len mark ≤ text.utf8ByteSize := by
  unfold findFrom at h
  split at h
  · cases h
  · rename_i rest hrest
    obtain ⟨⟨before, after⟩, hcut, ⟨⟩⟩ := Option.map_eq_some_iff.mp h
    obtain ⟨hstart, -, hsize⟩ := size_of_slice hrest
    have hlength := congrArg utf8Len (eq_append_of_cut hcut)
    rw [String.utf8Len_append, String.utf8Len_append, ← String.utf8ByteSize_ofList,
      String.ofList_toList, hsize] at hlength
    dsimp only
    omega

def contentFrom (closing : List Char) (hc : closing ≠ []) (text : String) (start : Nat) :
    Except Fault (Option (String × Nat)) :=
  match _hfind : findFrom closing text start with
  | none => .ok none
  | some position => do
    if ← escapedAt text start position then
      let part ← slice text start (position - 1)
      let rest ← contentFrom closing hc text (position + utf8Len closing)
      return rest.map fun (content, stop) => (part ++ String.ofList closing ++ content, stop)
    else
      let part ← slice text start position
      return some (part, position + utf8Len closing)
termination_by text.utf8ByteSize - start
decreasing_by
  have := le_of_findFrom _hfind
  have := utf8Len_pos hc
  omega

theorem le_of_contentFrom {closing : List Char} {hc : closing ≠ []} {text content : String}
    {start stop : Nat} (h : contentFrom closing hc text start = .ok (some (content, stop))) :
    start ≤ stop ∧ stop ≤ text.utf8ByteSize := by
  rw [contentFrom] at h
  split at h
  · cases h
  · rename_i position hfind
    have hposition := le_of_findFrom hfind
    have hc' := utf8Len_pos hc
    obtain ⟨escaped, -, h⟩ := bind_ok.mp h
    split at h
    · obtain ⟨part, -, h⟩ := bind_ok.mp h
      obtain ⟨rest, hrest, h⟩ := bind_ok.mp h
      obtain ⟨⟨content', stop'⟩, rfl, ⟨⟩⟩ := Option.map_eq_some_iff.mp (pure_ok.mp h)
      have := le_of_contentFrom hrest
      omega
    · obtain ⟨part, -, ⟨⟩⟩ := bind_ok.mp h
      omega
termination_by text.utf8ByteSize - start

namespace Delimiters

variable {m : Type → Type} [Monad m]

def scanFrom (d : Delimiters) (ho : d.opening ≠ []) (hc : d.closing ≠ []) (f : String → m String)
    (text : String) (start : Nat) : ExceptT Fault m String :=
  match _hfind : findFrom d.opening text start with
  | none => if start < text.utf8ByteSize then slice text start text.utf8ByteSize else pure ""
  | some position => do
    if ← escapedAt text 0 position then
      let part ← slice text start (position - 1)
      let rest ← d.scanFrom ho hc f text (position + utf8Len d.opening)
      return part ++ String.ofList d.opening ++ rest
    else
      let part ← slice text start position
      match _hcontent : contentFrom d.closing hc text (position + utf8Len d.opening) with
      | .error fault => throw fault
      | .ok none => return part ++ (← slice text position text.utf8ByteSize)
      | .ok (some (content, stop)) =>
        let replaced ← f content
        let rest ← d.scanFrom ho hc f text stop
        return part ++ replaced ++ rest
termination_by text.utf8ByteSize - start
decreasing_by
  all_goals
    have := le_of_findFrom _hfind
    have := utf8Len_pos ho
  · omega
  · have := le_of_contentFrom _hcontent
    omega

def scan (d : Delimiters) (f : String → m String) (text : String) : ExceptT Fault m String :=
  if ho : d.opening = [] then pure text
  else if hc : d.closing = [] then pure text
  else d.scanFrom ho hc f text 0

end Delimiters

-- ---------------------------------------------------------------------------
-- Reading at the position of a character
-- ---------------------------------------------------------------------------

variable {text : String} {a b mark before after : List Char}

theorem findFrom_of_cut_none (h : text.toList = a ++ b) (hcut : cut mark b = none) :
    findFrom mark text (utf8Len a) = none := by
  rw [findFrom, slice_rest h]
  simp [hcut]

theorem findFrom_of_cut (h : text.toList = a ++ b) (hcut : cut mark b = some (before, after)) :
    findFrom mark text (utf8Len a) = some (utf8Len (a ++ before)) := by
  rw [findFrom, slice_rest h]
  simp [hcut, String.utf8Len_append]

theorem escapedAt_at (h : text.toList = a ++ before ++ after) :
    escapedAt text (utf8Len a) (utf8Len (a ++ before)) =
      .ok (decide (before.getLast? = some '\\')) := by
  rcases List.eq_nil_or_concat before with rfl | ⟨before, c, rfl⟩
  · simp [escapedAt]
  · rw [List.concat_eq_append] at h ⊢
    have hpos : 0 < utf8Len (before ++ [c]) := utf8Len_pos (by simp)
    have hstart : utf8Len a < utf8Len (a ++ (before ++ [c])) := by
      rw [String.utf8Len_append]
      omega
    rw [escapedAt, if_pos hstart]
    rw [← List.append_assoc] at h ⊢
    rw [backslash_before h]
    simp

theorem contentFrom_of_cut {closing : List Char} {hc : closing ≠ []}
    (h : text.toList = a ++ before ++ closing ++ after)
    (hcut : cut closing (before ++ closing ++ after) = some (before, after)) :
    contentFrom closing hc text (utf8Len a) =
      if before.getLast? = some '\\' then
        (Option.map fun (content, stop) =>
          (String.ofList (before.dropLast ++ closing) ++ content, stop)) <$>
            contentFrom closing hc text (utf8Len (a ++ before ++ closing))
      else .ok (some (String.ofList before, utf8Len (a ++ before ++ closing))) := by
  have hrest : text.toList = a ++ (before ++ closing ++ after) := by simp [h]
  have hbefore : text.toList = a ++ before ++ (closing ++ after) := by simp [h]
  have hfind := findFrom_of_cut hrest hcut
  rw [contentFrom]
  split
  · rename_i hposition
    cases hfind.symm.trans hposition
  · rename_i position hposition
    obtain rfl := Option.some.inj (hfind.symm.trans hposition)
    rw [escapedAt_at hbefore, ← String.utf8Len_append]
    by_cases hlast : before.getLast? = some '\\'
    · rw [slice_dropLast hbefore hlast, if_pos hlast, String.ofList_append]
      simp only [hlast, decide_true]
      rfl
    · rw [slice_at hbefore, if_neg hlast]
      simp only [hlast, decide_false]
      rfl

/-- The content by positions is the content, and the position is where the text after it starts. -/
theorem contentFrom_at {closing : List Char} (hc : closing ≠ []) {text : String}
    {a b : List Char} (h : text.toList = a ++ b) :
    contentFrom closing hc text (utf8Len a) =
      .ok ((spanContent closing b).map fun (content, rest) =>
        (String.ofList content, text.utf8ByteSize - utf8Len rest)) := by
  cases hcut : cut closing b with
  | none =>
    have hfind := findFrom_of_cut_none h hcut
    rw [contentFrom, spanContent_of_cut_none hcut]
    split
    · rfl
    · rename_i hposition
      cases hfind.symm.trans hposition
  | some parts =>
    obtain ⟨before, after⟩ := parts
    have hparts := eq_append_of_cut hcut
    have hshorter := length_cut hcut
    have htext : text.toList = a ++ before ++ closing ++ after := by simp [h, hparts]
    have hsize : text.utf8ByteSize - utf8Len after = utf8Len (a ++ before ++ closing) := by
      rw [← utf8Len_toList, htext, String.utf8Len_append _ after, Nat.add_sub_cancel_right]
    rw [spanContent_of_cut hcut, contentFrom_of_cut htext (hparts ▸ hcut)]
    split
    · rw [contentFrom_at hc htext]
      cases spanContent closing after with
      | none => rfl
      | some span => simp [Functor.map, Except.map, String.ofList_append, String.append_assoc]
    · simp only [Option.map_some, hsize]
termination_by b.length
decreasing_by
  have := List.length_pos_iff.mpr hc
  omega

-- ---------------------------------------------------------------------------
-- Steps of a scan
-- ---------------------------------------------------------------------------

namespace Delimiters

variable {d : Delimiters} {ho : d.opening ≠ []} {hc : d.closing ≠ []}
  {m : Type → Type} [Monad m] {f : String → m String}

theorem liftM_ok {α : Type} (value : α) :
    (liftM (Except.ok value : Except Fault α) : ExceptT Fault m α) = pure value :=
  rfl

theorem scanFrom_unopened (h : text.toList = a ++ b) (hcut : cut d.opening b = none) :
    d.scanFrom ho hc f text (utf8Len a) = pure (String.ofList b) := by
  have hfind := findFrom_of_cut_none h hcut
  rw [scanFrom]
  split
  · split
    · rw [slice_rest h]
      rfl
    · rename_i hend
      rw [← utf8Len_toList, h, String.utf8Len_append] at hend
      obtain rfl := String.utf8Len_eq_zero.mp (show utf8Len b = 0 by omega)
      rfl
  · rename_i hposition
    cases hfind.symm.trans hposition

variable [LawfulMonad m]

theorem liftM_error_bind {α β : Type} (fault : Fault) (g : α → ExceptT Fault m β) :
    (liftM (Except.error fault : Except Fault α) : ExceptT Fault m α) >>= g = throw fault :=
  ExceptT.ext (pure_bind _ _)

theorem scanFrom_of_cut (h : text.toList = a ++ before ++ d.opening ++ after)
    (hcut : cut d.opening (before ++ d.opening ++ after) = some (before, after)) :
    d.scanFrom ho hc f text (utf8Len a) =
      if (a ++ before).getLast? = some '\\' then do
        let part ← slice text (utf8Len a) (utf8Len (a ++ before) - 1)
        let rest ← d.scanFrom ho hc f text (utf8Len (a ++ before ++ d.opening))
        return part ++ String.ofList d.opening ++ rest
      else
        match spanContent d.closing after with
        | none => pure (String.ofList (before ++ d.opening ++ after))
        | some (content, rest) => do
          let replaced ← f (String.ofList content)
          let replacedRest ← d.scanFrom ho hc f text (text.utf8ByteSize - utf8Len rest)
          return String.ofList before ++ replaced ++ replacedRest := by
  have hrest : text.toList = a ++ (before ++ d.opening ++ after) := by simp [h]
  have hbefore : text.toList = a ++ before ++ (d.opening ++ after) := by simp [h]
  have hfind := findFrom_of_cut hrest hcut
  have hstart : text.toList = [] ++ (a ++ before) ++ (d.opening ++ after) := hbefore
  have hescaped := escapedAt_at hstart
  rw [List.nil_append, String.utf8Len_nil] at hescaped
  rw [scanFrom]
  split
  · rename_i hposition
    cases hfind.symm.trans hposition
  · rename_i position hposition
    obtain rfl := Option.some.inj (hfind.symm.trans hposition)
    rw [hescaped, ← String.utf8Len_append]
    by_cases hlast : (a ++ before).getLast? = some '\\'
    · rw [if_pos hlast]
      simp only [hlast, decide_true, liftM_ok, pure_bind]
      rfl
    · have hcontent := contentFrom_at hc h
      rw [if_neg hlast]
      simp only [hlast, decide_false, liftM_ok, pure_bind, slice_at hbefore, Bool.false_eq_true,
        if_false]
      cases hspan : spanContent d.closing after with
      | none =>
        rw [hspan, Option.map_none] at hcontent
        split
        · rename_i hfault
          cases hcontent.symm.trans hfault
        · rw [slice_rest hbefore, liftM_ok, pure_bind, List.append_assoc]
          simp only [String.ofList_append]
        · rename_i hsome
          cases hcontent.symm.trans hsome
      | some span =>
        rw [hspan, Option.map_some] at hcontent
        split
        · rename_i hfault
          cases hcontent.symm.trans hfault
        · rename_i hnone
          cases hcontent.symm.trans hnone
        · rename_i content stop hsome
          cases hcontent.symm.trans hsome
          rfl

theorem scanFrom_escaped (h : text.toList = a ++ before ++ d.opening ++ after)
    (hcut : cut d.opening (before ++ d.opening ++ after) = some (before, after))
    (hlast : before.getLast? = some '\\') :
    d.scanFrom ho hc f text (utf8Len a) =
      (String.ofList (before.dropLast ++ d.opening) ++ ·) <$>
        d.scanFrom ho hc f text (utf8Len (a ++ before ++ d.opening)) := by
  have hlast' : (a ++ before).getLast? = some '\\' := by rw [List.getLast?_append, hlast]; rfl
  have hbefore : text.toList = a ++ before ++ (d.opening ++ after) := by simp [h]
  rw [scanFrom_of_cut h hcut, if_pos hlast', slice_dropLast hbefore hlast, liftM_ok, pure_bind,
    bind_pure_comp, String.ofList_append]

theorem scanFrom_clash (h : text.toList = a ++ d.opening ++ after)
    (hlast : a.getLast? = some '\\') :
    d.scanFrom ho hc f text (utf8Len a) = throw (.slice (utf8Len a) (utf8Len a - 1)) := by
  have hpos : 0 < utf8Len a := utf8Len_pos (by rintro rfl; cases hlast)
  have hordered : ¬Fits text (utf8Len a) (utf8Len a - 1) := fun h => by
    have := h.ordered
    omega
  have htext : text.toList = a ++ [] ++ d.opening ++ after := by simpa using h
  rw [scanFrom_of_cut htext (cut_append_self ho after)]
  simp only [List.append_nil, hlast, if_true, slice, dif_neg hordered, liftM_error_bind]

theorem scanFrom_opened (h : text.toList = a ++ before ++ d.opening ++ after)
    (hcut : cut d.opening (before ++ d.opening ++ after) = some (before, after))
    (hlast : (a ++ before).getLast? ≠ some '\\') {content rest inner : List Char}
    (hspan : spanContent d.closing after = some (content, rest))
    (hinner : after = inner ++ d.closing ++ rest) :
    d.scanFrom ho hc f text (utf8Len a) = do
      let replaced ← f (String.ofList content)
      let replacedRest ← d.scanFrom ho hc f text
        (utf8Len (a ++ before ++ d.opening ++ inner ++ d.closing))
      return String.ofList before ++ replaced ++ replacedRest := by
  have hsize : text.utf8ByteSize - utf8Len rest =
      utf8Len (a ++ before ++ d.opening ++ inner ++ d.closing) := by
    have htext : text.toList = a ++ before ++ d.opening ++ inner ++ d.closing ++ rest := by
      simp [h, hinner]
    rw [← utf8Len_toList, htext, String.utf8Len_append _ rest, Nat.add_sub_cancel_right]
  rw [scanFrom_of_cut h hcut, if_neg hlast, hspan, ← hsize]

-- ---------------------------------------------------------------------------
-- Runs
-- ---------------------------------------------------------------------------

def replaceUpTo (f : String → m String) (fault : Option Fault) (ps : List Piece) :
    ExceptT Fault m String :=
  match fault with
  | none => liftM (String.join <$> ps.mapM (Piece.replaceM f))
  | some fault => .mk ((fun _ => .error fault) <$> (ps.filterMap Piece.content?).mapM f)

variable {fault : Option Fault} {ps : List Piece}

theorem replaceUpTo_literal (s : List Char) :
    replaceUpTo f fault (.literal s :: ps) = (String.ofList s ++ ·) <$> replaceUpTo f fault ps := by
  refine ExceptT.ext ?_
  cases fault with
  | none => simp [replaceUpTo, Piece.replaceM, String.join_cons]
  | some fault =>
    have hcontents : (Piece.literal s :: ps).filterMap Piece.content? =
        ps.filterMap Piece.content? := List.filterMap_cons_none rfl
    simp [replaceUpTo, hcontents]

theorem replaceUpTo_span (content : List Char) :
    replaceUpTo f fault (.span content :: ps) = do
      let replaced ← f (String.ofList content)
      return replaced ++ (← replaceUpTo f fault ps) := by
  refine ExceptT.ext ?_
  cases fault with
  | none => simp [replaceUpTo, Piece.replaceM, String.join_cons]
  | some fault =>
    have hcontents : (Piece.span content :: ps).filterMap Piece.content? =
        String.ofList content :: ps.filterMap Piece.content? := List.filterMap_cons_some rfl
    rw [ExceptT.run_bind]
    simp [replaceUpTo, hcontents]

/-- An opening delimiter directly follows a delimiter that ends in a backslash. -/
def ClashAt (d : Delimiters) (text : String) (position : Nat) : Prop :=
  ∃ before mark after, mark ∈ [d.opening, d.closing] ∧ mark.getLast? = some '\\' ∧
    text.toList = before ++ mark ++ d.opening ++ after ∧ position = utf8Len (before ++ mark)

/-- Searching from a position does to the pieces what replacing does. It faults just where there
is a clash among them. -/
def SearchedAs (d : Delimiters) (ho : d.opening ≠ []) (hc : d.closing ≠ []) (text : String)
    (start : Nat) (ps : List Piece) : Prop :=
  ∃ fault : Option Nat, (fault = none ↔ .clash ∉ ps) ∧
    (∀ position ∈ fault, d.ClashAt text position) ∧
    ∀ {m : Type → Type} [Monad m] [LawfulMonad m] (f : String → m String),
      d.scanFrom ho hc f text start =
        replaceUpTo f (fault.map fun position => .slice position (position - 1)) ps

namespace SearchedAs

variable {start next : Nat}

theorem last {s : List Char}
    (hscan : ∀ {m : Type → Type} [Monad m] [LawfulMonad m] (f : String → m String),
      d.scanFrom ho hc f text start = pure (String.ofList s)) :
    d.SearchedAs ho hc text start [.literal s] := by
  refine ⟨none, by simp, nofun, fun f => ?_⟩
  rw [hscan f]
  exact ExceptT.ext (by simp [replaceUpTo, Piece.replaceM])

theorem clash (hclash : d.ClashAt text start)
    (hscan : ∀ {m : Type → Type} [Monad m] [LawfulMonad m] (f : String → m String),
      d.scanFrom ho hc f text start = throw (.slice start (start - 1))) :
    d.SearchedAs ho hc text start [.clash] := by
  refine ⟨some start, by simp, ?_, fun f => ?_⟩
  · rintro _ ⟨⟩
    exact hclash
  · have hcontents : [Piece.clash].filterMap Piece.content? = [] := rfl
    rw [hscan f]
    exact ExceptT.ext (by simp [replaceUpTo, hcontents])

theorem literal {s : List Char} (h : d.SearchedAs ho hc text next ps)
    (hscan : ∀ {m : Type → Type} [Monad m] [LawfulMonad m] (f : String → m String),
      d.scanFrom ho hc f text start = (String.ofList s ++ ·) <$> d.scanFrom ho hc f text next) :
    d.SearchedAs ho hc text start (.literal s :: ps) := by
  obtain ⟨fault, hfault, hclash, hnext⟩ := h
  refine ⟨fault, by simpa using hfault, hclash, fun f => ?_⟩
  rw [hscan f, hnext f, replaceUpTo_literal]

theorem span {s content : List Char} (h : d.SearchedAs ho hc text next ps)
    (hscan : ∀ {m : Type → Type} [Monad m] [LawfulMonad m] (f : String → m String),
      d.scanFrom ho hc f text start = do
        let replaced ← f (String.ofList content)
        let rest ← d.scanFrom ho hc f text next
        return String.ofList s ++ replaced ++ rest) :
    d.SearchedAs ho hc text start (.literal s :: .span content :: ps) := by
  obtain ⟨fault, hfault, hclash, hnext⟩ := h
  refine ⟨fault, by simpa using hfault, hclash, fun f => ?_⟩
  rw [hscan f, hnext f, replaceUpTo_literal, replaceUpTo_span]
  simp [String.append_assoc]

end SearchedAs

theorem searchedAs_piecesAfter (ho : d.opening ≠ []) (hc : d.closing ≠ []) {text : String}
    {a b : List Char} (h : text.toList = a ++ b)
    (hmark : a = [] ∨ ∃ mark ∈ [d.opening, d.closing], mark <:+ a) :
    d.SearchedAs ho hc text (utf8Len a) (d.piecesAfter ho a.getLast? b) := by
  -- By induction on the text that is left. A search is only ever resumed directly after a
  -- delimiter, which is what tells where the backslash before a clash comes from.
  cases hcut : cut d.opening b with
  | none =>
    rw [piecesAfter_unopened hcut]
    exact .last fun f => scanFrom_unopened h hcut
  | some parts =>
    obtain ⟨before, after⟩ := parts
    have hparts := eq_append_of_cut hcut
    have hshorter := length_cut hcut
    have htext : text.toList = a ++ before ++ d.opening ++ after := by simp [h, hparts]
    have hcut' : cut d.opening (before ++ d.opening ++ after) = some (before, after) :=
      hparts ▸ hcut
    by_cases hlast : before.getLast?.or a.getLast? = some '\\'
    -- Without text before the opening delimiter, the backslash is behind the place to resume at.
    · by_cases hbefore : before = []
      · subst hbefore
        rw [List.append_nil] at htext
        rw [List.getLast?_nil, Option.none_or] at hlast
        rw [piecesAfter_clash hcut hlast]
        refine .clash ?_ fun f => scanFrom_clash htext hlast
        rcases hmark with rfl | ⟨mark, hmark, earlier, rfl⟩
        · cases hlast
        · refine ⟨earlier, mark, after, hmark, ?_, htext, rfl⟩
          have hmark' : mark ≠ [] := by
            rcases List.mem_pair.mp hmark with rfl | rfl
            · exact ho
            · exact hc
          exact (List.getLast?_append_of_ne_nil _ hmark').symm.trans hlast
      · have hopened : (a ++ before ++ d.opening).getLast? = d.opening.getLast? :=
          List.getLast?_append_of_ne_nil _ ho
        have ih := searchedAs_piecesAfter ho hc htext
          (.inr ⟨d.opening, by simp, List.suffix_append _ _⟩)
        rw [hopened] at ih
        have hlast' : before.getLast? = some '\\' := by
          rw [List.getLast?_eq_some_getLast hbefore] at hlast ⊢
          exact hlast
        rw [piecesAfter_escaped hcut hbefore hlast']
        exact ih.literal fun f => scanFrom_escaped htext hcut' hlast'
    · rw [piecesAfter_opened hcut hlast, piecesOpened]
      rw [← List.getLast?_append] at hlast
      cases hspan : spanContent d.closing after with
      | none =>
        refine .last fun f => ?_
        rw [scanFrom_of_cut htext hcut', if_neg hlast, hspan]
      | some span =>
        obtain ⟨content, rest⟩ := span
        obtain ⟨inner, hinner⟩ := append_of_spanContent hspan
        have hrest := length_spanContent hspan
        have hclosed : (a ++ before ++ d.opening ++ inner ++ d.closing).getLast? =
            d.closing.getLast? := List.getLast?_append_of_ne_nil _ hc
        have hafter : text.toList = a ++ before ++ d.opening ++ inner ++ d.closing ++ rest := by
          simp [htext, hinner]
        have ih := searchedAs_piecesAfter ho hc hafter
          (.inr ⟨d.closing, by simp, List.suffix_append _ _⟩)
        rw [hclosed] at ih
        exact ih.span fun f => scanFrom_opened htext hcut' hlast hspan hinner
termination_by b.length
decreasing_by
  all_goals
    have := List.length_pos_iff.mpr ho
    omega

theorem scan_eq_replaceUpTo (d : Delimiters) (text : String) :
    ∃ fault : Option Nat, (fault = none ↔ .clash ∉ d.pieces text) ∧
      (∀ position ∈ fault, d.ClashAt text position) ∧
      ∀ {m : Type → Type} [Monad m] [LawfulMonad m] (f : String → m String),
        d.scan f text =
          replaceUpTo f (fault.map fun position => .slice position (position - 1))
            (d.pieces text) := by
  have hwhole : ∀ {m : Type → Type} [Monad m] [LawfulMonad m] (f : String → m String),
      pure text = replaceUpTo f none [.literal text.toList] := by
    intro m _ _ f
    exact ExceptT.ext (by simp [replaceUpTo, Piece.replaceM])
  by_cases ho : d.opening = []
  · refine ⟨none, by simp [pieces, ho], by simp, fun f => ?_⟩
    rw [scan, dif_pos ho, pieces, dif_pos ho]
    exact hwhole f
  · by_cases hc : d.closing = []
    · refine ⟨none, by simp [pieces, hc], by simp, fun f => ?_⟩
      rw [scan, dif_neg ho, dif_pos hc, pieces, dif_neg ho, if_pos hc]
      exact hwhole f
    · obtain ⟨fault, hfault, hclash, hscan⟩ :=
        searchedAs_piecesAfter ho hc (a := []) (b := text.toList) rfl (.inl rfl)
      rw [pieces_eq ho hc]
      refine ⟨fault, hfault, hclash, fun f => ?_⟩
      rw [scan, dif_neg ho, dif_neg hc]
      exact hscan f

end Delimiters

/-- Searching a text by positions does what replacing does and takes slices of the text only, unless
there is a clash: an opening delimiter directly after a delimiter that ends in a backslash. There
the slice up to that backslash would have to end before it starts. Until then every content was
replaced, in order. -/
theorem scan_faults_only_at_clash (d : Delimiters) (text : String) :
    (d.clashes text = false →
      ∀ {m : Type → Type} [Monad m] [LawfulMonad m] (f : String → m String),
        (d.scan f text).run = Except.ok <$> d.replaceM f text) ∧
    (d.clashes text = true → ∃ position, d.ClashAt text position ∧
      ∀ {m : Type → Type} [Monad m] [LawfulMonad m] (f : String → m String),
        (d.scan f text).run =
          (fun _ => .error (.slice position (position - 1))) <$> (d.contents text).mapM f) := by
  obtain ⟨fault, hfault, hclash, hscan⟩ := d.scan_eq_replaceUpTo text
  have hclashes : d.clashes text = false ↔ .clash ∉ d.pieces text := by
    rw [Delimiters.clashes, List.any_beq', ← Bool.not_eq_true, List.contains_iff_mem]
  rw [← hfault] at hclashes
  constructor
  · intro hnone
    obtain rfl := hclashes.mp hnone
    intro m _ _ f
    rw [hscan f, Delimiters.replaceM, bind_pure_comp]
    exact ExceptT.run_liftM _
  · intro hsome
    cases fault with
    | none => rw [hclashes.mpr rfl] at hsome; cases hsome
    | some position =>
      refine ⟨position, hclash position rfl, fun f => ?_⟩
      rw [hscan f]
      rfl

def backslashed : Delimiters where
  opening := ['#', '\x7b']
  closing := ['\x7d', '\\']

/-- With a blank between them, the second span is found. -/
theorem backslashed_spans_apart :
    backslashed.clashes "#\x7ba\x7d\\ #\x7bb\x7d\\" = false ∧
      (backslashed.scan (fun content => some ("<" ++ content ++ ">"))
        "#\x7ba\x7d\\ #\x7bb\x7d\\").run = some (.ok "<a> <b>") := by
  have hclashes : backslashed.clashes "#\x7ba\x7d\\ #\x7bb\x7d\\" = false := by decide +kernel
  refine ⟨hclashes, ?_⟩
  rw [(scan_faults_only_at_clash _ _).1 hclashes]
  decide +kernel

/-- The second span is opened directly after the first one is closed. -/
theorem backslashed_spans_fault :
    (backslashed.scan (fun content => some ("<" ++ content ++ ">"))
      "#\x7ba\x7d\\#\x7bb\x7d\\").run = some (.error (.slice 5 4)) := by
  decide +kernel

end MappedSql.Text
