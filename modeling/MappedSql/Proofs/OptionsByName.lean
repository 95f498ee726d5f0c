import MappedSql.Proofs.Placeholders
import MappedSql.Proofs.WrittenPlaceholders

/-!
# Options by name

Every part of a placeholder says one thing about the parameter, which its name tells. So a
parameter is made of the texts that count under the names, whatever their order: options with
distinct names can change places. What counts under a name is what was written last, also under the
name of the property itself.
-/

namespace MappedSql

namespace Text

theorem sameAsciiLetters_eq (a b : String) :
    sameAsciiLetters a b = (a.toList.map Char.toLower == b.toList.map Char.toLower) := by
  rw [Bool.eq_iff_iff]
  simp [sameAsciiLetters, asciiLower, ← String.toList_inj]

end Text

namespace Keyed

variable {κ α : Type} [BEq κ]

theorem get?_singleton [LawfulBEq κ] [DecidableEq κ] (key other : κ) (value : α) :
    get? [(key, value)] other = if key = other then some value else none := by
  rw [get?_cons]
  simp [get?]

theorem get?_append (entries others : Keyed κ α) (key : κ) :
    get? (entries ++ others) key = (get? entries key).or (get? others key) := by
  simp only [get?, List.find?_append]
  cases entries.find? (·.1 == key) with
  | none => rfl
  | some entry => rfl

end Keyed

namespace Placeholder

-- ---------------------------------------------------------------------------
-- Parts of a draft
-- ---------------------------------------------------------------------------

def Accepts (name value : String) : Prop :=
  match name with
  | "javaType" => (ValueType.ofAlias? value).isSome
  | "jdbcType" => (Choice.ofName? value : Option DriverType).isSome
  | "mode" => (Choice.ofName? value : Option ParameterMode).isSome
  | "numericScale" => (Text.unsigned? (Nat.pow 2 32) value.toList).isSome
  | "resultMap" | "typeHandler" | "jdbcTypeName" | "property" => True
  | _ => False

def Draft.said (d : Draft) (texts : String → Option String) : Draft where
  parameter := { d.parameter with
    type := ((texts "javaType").bind ValueType.ofAlias?).getD d.parameter.type
    driverType := ((texts "jdbcType").bind Choice.ofName?).or d.parameter.driverType
    driverTypeName := (texts "jdbcTypeName").or d.parameter.driverTypeName
    mode := ((texts "mode").bind Choice.ofName?).getD d.parameter.mode
    scale := ((texts "numericScale").bind (Text.unsigned? (Nat.pow 2 32) ·.toList)).or
      d.parameter.scale
    resultMap := (texts "resultMap").or d.parameter.resultMap }
  handlerName := (texts "typeHandler").or d.handlerName

variable {content name value : String} {d d' : Draft} {ps ps' : Parts}

theorem applyPart_ok : applyPart content d name value = .ok d' ↔
    Accepts name value ∧ d' = d.said (Keyed.get? [(name, value)]) := by
  unfold applyPart
  dsimp only
  split
  case h_8 =>
    have hsame : d.said (Keyed.get? [("property", value)]) = d := by
      simp [Draft.said, Keyed.get?_singleton]
    simp [Accepts, hsame, eq_comm]
  case h_5 | h_6 | h_7 | h_9 => simp [Accepts, Draft.said, Keyed.get?_singleton, eq_comm]
  case h_10 => simp_all [Accepts]
  -- the names whose text has to be read
  all_goals
    split
    · simp [Accepts, Draft.said, Keyed.get?_singleton, eq_comm, *]
    · simp [Accepts, *]

theorem said_said {texts texts' : String → Option String}
    (h : ∀ name, texts' name = none ∨ texts name = none) (d : Draft) :
    (d.said texts).said texts' = d.said fun name => (texts' name).or (texts name) := by
  have hread : ∀ {α : Type} (name : String) (read : String → Option α) (x : Option α),
      ((texts' name).bind read).or (((texts name).bind read).or x) =
        (((texts' name).or (texts name)).bind read).or x := by
    intro α name read x
    rcases h name with hnone | hnone
    · simp [hnone]
    · simp [hnone]
  have hset : ∀ {α : Type} (name : String) (read : String → Option α) (x : α),
      ((texts' name).bind read).getD (((texts name).bind read).getD x) =
        (((texts' name).or (texts name)).bind read).getD x := by
    intro α name read x
    rcases h name with hnone | hnone
    · simp [hnone]
    · simp [hnone]
  simp only [Draft.said, hread, hset, Option.or_assoc]

theorem said_cons (d : Draft) (value : String) (hname : name ∉ ps.map (·.1)) :
    (d.said (Keyed.get? [(name, value)])).said (Keyed.get? ps) =
      d.said (Keyed.get? ((name, value) :: ps)) := by
  have hnone : Keyed.get? ps name = none := Keyed.get?_eq_none_iff.mpr hname
  rw [said_said]
  · congr 1
    funext other
    rw [Keyed.get?_singleton, Keyed.get?_cons]
    by_cases h : name = other
    · subst h
      simp [hnone]
    · simp [h]
  · intro other
    rw [Keyed.get?_singleton]
    by_cases h : name = other
    · exact .inl (h ▸ hnone)
    · simp [h]

/-- All parts together say what they say one by one. -/
theorem applyParts_ok (hdistinct : (ps.map (·.1)).Nodup) :
    applyParts content d ps = .ok d' ↔
      (∀ part ∈ ps, Accepts part.1 part.2) ∧ d' = d.said (Keyed.get? ps) := by
  induction ps generalizing d with
  | nil =>
    have hsaid : d.said (Keyed.get? []) = d := rfl
    rw [applyParts, List.foldlM_nil, pure_ok, hsaid]
    simp [eq_comm]
  | cons part rest ih =>
    obtain ⟨name, value⟩ := part
    obtain ⟨hname, hrest⟩ := List.nodup_cons.mp hdistinct
    simp only [applyParts, List.foldlM_cons, bind_ok, List.forall_mem_cons]
    constructor
    · rintro ⟨next, hpart, hparts⟩
      obtain ⟨haccepts, rfl⟩ := applyPart_ok.mp hpart
      obtain ⟨hall, rfl⟩ := (ih hrest).mp hparts
      exact ⟨⟨haccepts, hall⟩, said_cons d value hname⟩
    · rintro ⟨⟨haccepts, hall⟩, rfl⟩
      exact ⟨_, applyPart_ok.mpr ⟨haccepts, rfl⟩,
        (ih hrest).mpr ⟨hall, (said_cons d value hname).symm⟩⟩

-- ---------------------------------------------------------------------------
-- What counts under a name
-- ---------------------------------------------------------------------------

theorem nodup_collect (entries : List (String × String)) : ((collect entries).map (·.1)).Nodup := by
  have hfold : ∀ ps : Parts, (ps.map (·.1)).Nodup →
      ((entries.foldl (fun ps entry => Keyed.put ps entry.1 entry.2) ps).map (·.1)).Nodup := by
    induction entries with
    | nil => exact fun _ h => h
    | cons entry rest ih => exact fun ps h => ih _ (Keyed.nodup_put h)
  exact hfold [] List.nodup_nil

theorem get?_collect (entries : List (String × String)) (name : String) :
    Keyed.get? (collect entries) name = Keyed.get? entries.reverse name := by
  have hfold : ∀ ps : Parts,
      Keyed.get? (entries.foldl (fun ps entry => Keyed.put ps entry.1 entry.2) ps) name =
        (Keyed.get? entries.reverse name).or (Keyed.get? ps name) := by
    induction entries with
    | nil => exact fun ps => rfl
    | cons entry rest ih =>
      intro ps
      rw [List.foldl_cons, ih, List.reverse_cons, Keyed.get?_append, Option.or_assoc,
        Keyed.get?_singleton]
      congr 1
      by_cases h : entry.1 = name
      · simp [← h, Keyed.get?_put_self]
      · simp [h, Keyed.get?_put_of_ne ps entry.2 (Ne.symm h)]
  exact (hfold []).trans Option.or_none

namespace Written

def text? (w : Written) (name : String) : Option String :=
  Keyed.get? w.entries.reverse name

def option? (w : Written) (name : String) : Option String :=
  Keyed.get? (w.options.map WrittenOption.entry).reverse name

variable {w : Written}

/-- Options count before the driver type after the colon, and before the property. -/
theorem text?_eq (w : Written) (name : String) : w.text? name =
    ((w.option? name).or (if name = "jdbcType" then w.driverType? else none)).or
      (if name = "property" then some w.leading else none) := by
  have htype : Keyed.get? (w.driverType?.map ("jdbcType", ·)).toList.reverse name =
      if name = "jdbcType" then w.driverType? else none := by
    cases w.driverType? with
    | none => simp [Keyed.get?]
    | some type => simp [Keyed.get?_singleton, eq_comm]
  rw [text?, entries, List.reverse_append, Keyed.get?_append, List.reverse_cons, Keyed.get?_append,
    Keyed.get?_singleton, htype, option?, Option.or_assoc]
  simp [eq_comm]

theorem text?_property (w : Written) :
    w.text? "property" = some ((w.option? "property").getD w.leading) := by
  rw [text?_eq]
  cases w.option? "property" with
  | none => rfl
  | some text => rfl

theorem text?_driverType (w : Written) :
    w.text? "jdbcType" = (w.option? "jdbcType").or w.driverType? := by
  simp [text?_eq]

theorem text?_insert {before after : List WrittenOption} {o : WrittenOption} {name : String}
    (hw : w.options = before ++ after) (hname : name ≠ o.entry.1) :
    ({ w with options := before ++ o :: after } : Written).text? name = w.text? name := by
  have hoption : ({ w with options := before ++ o :: after } : Written).option? name =
      w.option? name := by
    simp only [option?, hw, List.map_append, List.map_cons, List.reverse_append,
      List.reverse_cons, Keyed.get?_append]
    rw [Keyed.get?_singleton, if_neg hname.symm, Option.or_none]
  rw [text?_eq, text?_eq, hoption]
  rfl

theorem text?_perm {options : List WrittenOption} (hperm : options.Perm w.options)
    (hdistinct : (w.options.map (·.entry.1)).Nodup) :
    ({ w with options } : Written).text? = w.text? := by
  have hoption : ({ w with options } : Written).option? = w.option? := by
    apply Keyed.get?_perm
    · simpa [List.map_map, Function.comp_def] using hdistinct
    · exact (List.reverse_perm _).trans ((hperm.map _).trans (List.reverse_perm _).symm)
  funext name
  rw [text?_eq, text?_eq, hoption]
  rfl

theorem Separated.insert {before after : List WrittenOption} {o : WrittenOption}
    (h : w.Separated) (hw : w.options = before ++ after) (ho : o.Separated) :
    ({ w with options := before ++ o :: after } : Written).Separated := by
  refine ⟨h.property, h.start, h.type, ?_, h.ending⟩
  have hall := h.options
  rw [hw] at hall
  simp only [List.forall_mem_append, List.forall_mem_cons] at hall ⊢
  exact ⟨hall.1, ho, hall.2⟩

theorem Separated.perm {options : List WrittenOption} (h : w.Separated)
    (hperm : options.Perm w.options) : ({ w with options } : Written).Separated :=
  ⟨h.property, h.start, h.type, fun o ho => h.options o (hperm.mem_iff.mp ho), h.ending⟩

theorem Separated.namesProperty_of_options (h : w.Separated) (hne : w.options ≠ []) :
    NamesProperty w.content := by
  obtain ⟨o, rest, hoptions⟩ := List.exists_cons_of_ne_nil hne
  rw [namesProperty_iff, skipSpaces_content]
  cases hs : skipSpaces w.property with
  | nil =>
    have htail : w.tail ≠ [] := by simp [tail, listed, hoptions]
    obtain ⟨c, after, hcons⟩ := List.exists_cons_of_ne_nil htail
    refine ⟨c, after, by simpa using hcons, ?_⟩
    rintro rfl
    have hmark := (head_tail w '(' (by simp [hcons])).1
    cases hmark
  | cons d after =>
    refine ⟨d, after ++ w.tail, rfl, ?_⟩
    rintro rfl
    exact h.start (by simp [hs])

end Written

end Placeholder

namespace Resolver

open Placeholder

variable {r : Resolver} {content : String} {p : Parameter} {ps : Parts} {w : Written}

/-- What the texts under the names say, beginning with the type that is inferred from them. -/
def draft (r : Resolver) (texts : String → Option String) : Draft :=
  Draft.said { parameter :=
    { property := texts "property"
      type := r.inferType (texts "property") (texts "jdbcType") } } texts

def Makes (r : Resolver) (texts : String → Option String) (p : Parameter) : Prop :=
  (∀ name value, texts name = some value → Accepts name value) ∧
  ∃ handler, r.handlerFor (r.draft texts) = .ok handler ∧
    p = { (r.draft texts).parameter with handler }

theorem resolve_parts (hps : parts content = .ok ps) (hdistinct : (ps.map (·.1)).Nodup) :
    r.resolve content = .ok p ↔ (∀ part ∈ ps, Accepts part.1 part.2) ∧
      ∃ handler, r.handlerFor (r.draft (Keyed.get? ps)) = .ok handler ∧
        p = { (r.draft (Keyed.get? ps)).parameter with handler } := by
  rw [resolve_ok]
  constructor
  · rintro ⟨_, draft, hps', hdraft, hhandler⟩
    cases hps.symm.trans hps'
    obtain ⟨hall, rfl⟩ := (applyParts_ok hdistinct).mp hdraft
    exact ⟨hall, hhandler⟩
  · rintro ⟨hall, hhandler⟩
    exact ⟨ps, _, hps, (applyParts_ok hdistinct).mpr ⟨hall, rfl⟩, hhandler⟩

/-- A placeholder makes the parameter that the texts say that count under the names. -/
theorem resolve_written (h : w.Separated) (hstart : NamesProperty w.content) :
    r.resolve w.content = .ok p ↔ r.Makes w.text? p := by
  have hdistinct := nodup_collect w.entries
  have htexts : Keyed.get? (collect w.entries) = w.text? := funext (get?_collect w.entries)
  have haccepts : (∀ part ∈ collect w.entries, Accepts part.1 part.2) ↔
      ∀ name value, w.text? name = some value → Accepts name value := by
    simp only [← htexts, Keyed.get?_eq_some_iff hdistinct, Prod.forall]
  rw [resolve_parts (parts_content h hstart) hdistinct, haccepts, htexts, Makes]

theorem Makes.rename {texts texts' : String → Option String} (h : r.Makes texts p)
    (hsame : ∀ name ≠ "property", texts' name = texts name) :
    ∃ q, r.Makes texts' q ∧
      q = { p with property := q.property, type := q.type, handler := q.handler } := by
  obtain ⟨haccepts, handler, hhandler, rfl⟩ := h
  have hname : (r.draft texts').handlerName = (r.draft texts).handlerName := by
    simp [draft, Draft.said, hsame]
  obtain ⟨handler', hhandler'⟩ : ∃ handler', r.handlerFor (r.draft texts') = .ok handler' := by
    unfold handlerFor at hhandler ⊢
    rw [hname]
    split at hhandler
    · exact ⟨handler, hhandler⟩
    · exact ⟨_, rfl⟩
  refine ⟨_, ⟨?_, handler', hhandler', rfl⟩, ?_⟩
  · intro name value hvalue
    by_cases hproperty : name = "property"
    · subst hproperty
      trivial
    · exact haccepts name value (hsame name hproperty ▸ hvalue)
  · simp [draft, Draft.said, hsame]

/-- Options with distinct names can stand in any order. -/
theorem options_change_places {options : List WrittenOption} (h : w.Separated)
    (hperm : options.Perm w.options) (hdistinct : (w.options.map (·.entry.1)).Nodup)
    (r : Resolver) (p : Parameter) :
    r.resolve ({ w with options } : Written).content = .ok p ↔ r.resolve w.content = .ok p := by
  by_cases hnone : w.options = []
  · rw [hnone, List.perm_nil] at hperm
    rw [hperm, ← hnone]
  · have hnone' : options ≠ [] := by
      rintro rfl
      exact hnone hperm.nil_eq.symm
    have h' := h.perm hperm
    rw [resolve_written h (h.namesProperty_of_options hnone),
      resolve_written h' (h'.namesProperty_of_options hnone'), Written.text?_perm hperm hdistinct]

def rowResolver : Resolver where
  handlers := .standard
  argumentType := .record "Row" [("id", .int), ("note", .text)]
  bindings := []

def typedNote : Written where
  property := "note".toList
  type := some "OTHER".toList
  options :=
    [⟨" javaType".toList, "boolean".toList⟩, ⟨" typeHandler ".toList, " json".toList⟩,
      ⟨"jdbcType".toList, "CURSOR".toList⟩, ⟨"property".toList, "id".toList⟩]

theorem typed_note_changes_places :
    typedNote.Separated ∧ (typedNote.options.map (·.entry.1)).Nodup ∧
    typedNote.content =
      "note:OTHER, javaType=boolean, typeHandler = json,jdbcType=CURSOR,property=id" ∧
    ({ typedNote with options := typedNote.options.reverse } : Written).content =
      "note:OTHER,property=id,jdbcType=CURSOR, typeHandler = json, javaType=boolean" ∧
    ∃ p, rowResolver.resolve typedNote.content = .ok p ∧
      p.property = some "id" ∧ p.handler.map (·.name) = some "json" ∧
      rowResolver.resolve
        ({ typedNote with options := typedNote.options.reverse } : Written).content = .ok p := by
  have hseparated : typedNote.Separated := by decide +kernel
  have hdistinct : (typedNote.options.map (·.entry.1)).Nodup := by decide +kernel
  have hps : parts typedNote.content = .ok
      [("property", "id"), ("jdbcType", "CURSOR"), ("javaType", "boolean"),
        ("typeHandler", "json")] :=
    parts_content hseparated (by decide +kernel)
  have hcursor : (Choice.ofName? "CURSOR" : Option DriverType) = some .cursor := by
    simp only [Choice.ofName?, Text.sameAsciiLetters_eq]
    decide +kernel
  have hboolean : ValueType.ofAlias? "boolean" = some .boolean := by
    have hlower : Text.asciiLower (Text.trimmed "boolean") = "boolean" := by
      rw [Text.asciiLower, ← String.toList_inj, String.toList_map]
      decide +kernel
    rw [ValueType.ofAlias?, hlower]
    rfl
  have haccepts : ∀ part ∈ [("property", "id"), ("jdbcType", "CURSOR"), ("javaType", "boolean"),
      ("typeHandler", "json")], Accepts part.1 part.2 := by
    simp [Accepts, hcursor, hboolean]
  have hp := (resolve_parts (r := rowResolver) hps (by decide +kernel)).mpr ⟨haccepts, _, rfl, rfl⟩
  exact ⟨hseparated, hdistinct, by decide +kernel, by decide +kernel, _, hp, rfl, rfl,
    (options_change_places hseparated (List.reverse_perm _) hdistinct rowResolver _).mpr hp⟩

/-- The property is the last text that an option gives it, and the type is inferred for that one,
where no option sets the type. -/
theorem options_name_property (hstart : NamesProperty content) (h : r.resolve content = .ok p) :
    (∃ w : Written, w.Separated ∧ w.content = content) ∧
    ∀ w : Written, w.Separated → w.content = content →
      p.property = some ((w.option? "property").getD w.leading) ∧
      (w.option? "javaType" = none →
        p.type = r.inferType p.property ((w.option? "jdbcType").or w.driverType?)) ∧
      ∀ before o after, w.options = before ++ after → o.Separated → o.entry.1 = "property" →
        ∃ q, r.resolve ({ w with options := before ++ o :: after } : Written).content = .ok q ∧
          q = { p with property := q.property, type := q.type, handler := q.handler } := by
  obtain ⟨ps, -, hps, -⟩ := resolve_ok.mp h
  refine ⟨exists_written hstart hps, ?_⟩
  rintro w hw rfl
  have hmakes := (resolve_written hw hstart).mp h
  refine ⟨?_, ?_, ?_⟩
  · obtain ⟨-, handler, -, rfl⟩ := hmakes
    exact w.text?_property
  · intro hnone
    obtain ⟨-, handler, -, rfl⟩ := hmakes
    have hset : w.text? "javaType" = none := by simp [Written.text?_eq, hnone]
    simp [draft, Draft.said, hset, w.text?_driverType]
  · intro before o after hoptions ho hname
    obtain ⟨q, hq, hsame⟩ := hmakes.rename fun name hne =>
      Written.text?_insert hoptions (hname ▸ hne)
    have hw' := hw.insert hoptions ho
    have hstart' := hw'.namesProperty_of_options (List.append_ne_nil_of_right_ne_nil before nofun)
    exact ⟨q, (resolve_written hw' hstart').mpr hq, hsame⟩

def outputId : Written where
  property := " id ".toList
  type := some "BLOB".toList
  options := [⟨" mode ".toList, " out".toList⟩]

def namesNote : WrittenOption :=
  ⟨" property ".toList, " note ".toList⟩

theorem output_id_names_property :
    NamesProperty outputId.content ∧ outputId.content = " id :BLOB, mode = out" ∧
    ∃ p, rowResolver.resolve outputId.content = .ok p ∧ p.property = some "id" ∧ p.type = .int ∧
      ∃ q, rowResolver.resolve
          ({ outputId with options := [] ++ namesNote :: outputId.options } : Written).content =
            .ok q ∧
        q = { p with property := q.property, type := q.type, handler := q.handler } := by
  have hstart : NamesProperty outputId.content := by decide +kernel
  have hseparated : outputId.Separated := by decide +kernel
  have hps : parts outputId.content =
      .ok [("property", "id"), ("jdbcType", "BLOB"), ("mode", "out")] :=
    parts_content hseparated hstart
  have hblob : (Choice.ofName? "BLOB" : Option DriverType) = some .blob := by
    simp only [Choice.ofName?, Text.sameAsciiLetters_eq]
    decide +kernel
  have hout : (Choice.ofName? "out" : Option ParameterMode) = some .output := by
    simp only [Choice.ofName?, Text.sameAsciiLetters_eq]
    decide +kernel
  have haccepts : ∀ part ∈ [("property", "id"), ("jdbcType", "BLOB"), ("mode", "out")],
      Accepts part.1 part.2 := by
    simp [Accepts, hblob, hout]
  have hp := (resolve_parts (r := rowResolver) hps (by decide +kernel)).mpr ⟨haccepts, _, rfl, rfl⟩
  obtain ⟨-, hwritten⟩ := options_name_property hstart hp
  obtain ⟨hproperty, htype, hinsert⟩ := hwritten outputId hseparated rfl
  have hint : rowResolver.inferType (some "id") (some "BLOB") = .int := by
    have hcursor : Text.sameAsciiLetters "CURSOR" "BLOB" = false := by
      rw [Text.sameAsciiLetters_eq]
      decide +kernel
    simp only [inferType, rowResolver, Option.bind_some, Bindings.property?, Entries.get?,
      List.lookup_nil, Option.bind_eq_bind, Option.bind_none, Option.any_some, hcursor,
      Bool.false_eq_true, if_false]
    rfl
  refine ⟨hstart, by decide +kernel, _, hp, hproperty, (htype rfl).trans hint, ?_⟩
  exact hinsert [] namesNote outputId.options rfl (by decide +kernel) (by decide +kernel)

/-- An option with the name of the property takes the place of the text in front. -/
theorem property_option_binds_other_field :
    (rowResolver.resolve "id, property=note").toOption.map
      (fun p => (p.property, p.type == .text)) = some (some "note", true) ∧
    rowResolver.inferType (some "id") none = .int := by
  exact ⟨by decide +kernel, rfl⟩

end Resolver

end MappedSql
