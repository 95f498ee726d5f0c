import MappedSql.Proofs.Renaming
import MappedSql.Proofs.Rereading
import MappedSql.Proofs.Trimming

/-!
# Bodies and the texts of their elements

For each element a loop puts the text of its body together again, with other contents in the
placeholders that start with a name of the loop. That text is cut and compiled once more, with
the statement. It compiles to the SQL text of the body, and to parameters that differ in nothing
that is written in their placeholders but the name at their start, just as long as nothing that
the first cut decoded takes part in the second.

Options are read in order, and what each of them does to a parameter does not depend on the
others, on the property or on the types. So the induction is on the parts of two placeholders side
by side.
-/

namespace MappedSql

theorem mapM_alike {ε ε' α β γ : Type} {f : α → Except ε β} {g : α → Except ε' γ}
    {R : α → β → γ → Prop} {as : List α}
    (h : ∀ a ∈ as, (∃ e e', f a = .error e ∧ g a = .error e') ∨
      ∃ b c, f a = .ok b ∧ g a = .ok c ∧ R a b c) :
    (∃ e e', as.mapM f = .error e ∧ as.mapM g = .error e') ∨
      ∃ bs cs, as.mapM f = .ok bs ∧ as.mapM g = .ok cs ∧ cs.length = bs.length ∧
        List.Forall₂ (fun a pair => R a pair.1 pair.2) as (bs.zip cs) := by
  induction as with
  | nil => exact .inr ⟨[], [], rfl, rfl, rfl, .nil⟩
  | cons a as ih =>
    obtain ⟨hfirst, hrest⟩ := List.forall_mem_cons.mp h
    simp only [List.mapM_cons]
    rcases hfirst with ⟨e, e', he, he'⟩ | ⟨b, c, hb, hc, hbc⟩
    · exact .inl ⟨e, e', by rw [he]; rfl, by rw [he']; rfl⟩
    · rcases ih hrest with ⟨e, e', he, he'⟩ | ⟨bs, cs, hbs, hcs, hlength, halike⟩
      · exact .inl ⟨e, e', by rw [hb, he]; rfl, by rw [hc, he']; rfl⟩
      · exact .inr ⟨b :: bs, c :: cs, by rw [hb, hbs]; rfl, by rw [hc, hcs]; rfl,
          congrArg (· + 1) hlength, .cons hbc halike⟩

-- ---------------------------------------------------------------------------
-- Parameters that are written alike
-- ---------------------------------------------------------------------------

/-- What options alone decide is the same. -/
structure Parameter.SameOptions (p p' : Parameter) : Prop where
  driverType : p'.driverType = p.driverType
  driverTypeName : p'.driverTypeName = p.driverTypeName
  mode : p'.mode = p.mode
  scale : p'.scale = p.scale
  resultMap : p'.resultMap = p.resultMap

theorem Parameter.SameOptions.withHandler {p p' : Parameter} (h : p.SameOptions p')
    (handler handler' : Option TypeHandler) :
    Parameter.SameOptions { p with handler } { p' with handler := handler' } :=
  ⟨h.driverType, h.driverTypeName, h.mode, h.scale, h.resultMap⟩

namespace Placeholder

def part? (content name : String) : Option String :=
  match parts content with
  | .ok parts => Keyed.get? parts name
  | .error _ => none

/-- Parameters of placeholders with the same options: where an option says the type or the handler,
that is the same, too. -/
structure WrittenAlike (content : String) (p p' : Parameter) : Prop where
  options : p.SameOptions p'
  type : (part? content "javaType").isSome → p'.type = p.type
  handler : (part? content "javaType").isSome ∨ (part? content "typeHandler").isSome →
    p'.handler = p.handler

/-- Parts under the same names in the same order, with the same texts but for the property. -/
def SameParts : Parts → Parts → Prop :=
  List.Forall₂ fun a b => b.1 = a.1 ∧ (a.1 ≠ "property" → b.2 = a.2)

variable {content content' name value value' : String} {ps ps' found : Parts} {s : List Char}

namespace SameParts

theorem refl (ps : Parts) : SameParts ps ps :=
  List.forall₂_same.mpr fun _ _ => ⟨rfl, fun _ => rfl⟩

theorem property (value value' : String) :
    SameParts [("property", value)] [("property", value')] :=
  .cons ⟨rfl, fun h => absurd rfl h⟩ .nil

theorem contains (h : SameParts ps ps') (name : String) :
    Keyed.contains ps' name = Keyed.contains ps name := by
  induction h with
  | nil => rfl
  | cons hab _ ih =>
    simp only [Keyed.contains, List.any_cons, hab.1] at ih ⊢
    rw [ih]

theorem put (h : SameParts ps ps') (name value : String) :
    SameParts (Keyed.put ps name value) (Keyed.put ps' name value) := by
  unfold Keyed.put
  rw [h.contains name]
  split
  · refine List.forall₂_map_left_iff.mpr (List.forall₂_map_right_iff.mpr (h.imp ?_))
    rintro ⟨other, old⟩ ⟨_, old'⟩ ⟨rfl, hold⟩
    dsimp only
    split
    · exact ⟨rfl, fun _ => rfl⟩
    · exact ⟨rfl, hold⟩
  · exact List.rel_append h (.cons ⟨rfl, fun _ => rfl⟩ .nil)

theorem readOptions (h : SameParts ps ps') (hfound : readOptions ps s = .ok found) :
    ∃ found', Placeholder.readOptions ps' s = .ok found' ∧ SameParts found found' := by
  fun_induction Placeholder.readOptions ps s generalizing ps' with
  | case1 ps s hs =>
    cases hfound
    refine ⟨ps', ?_, h⟩
    rw [Placeholder.readOptions]
    split
    · rfl
    · simp_all
  | case2 => cases hfound
  | case3 ps s c rest hs head afterSign hsign key text =>
    rename_i ih
    obtain ⟨found', hfound', hsame⟩ := ih (h.put key text) hfound
    refine ⟨found', ?_, hsame⟩
    rw [Placeholder.readOptions]
    split
    · simp_all
    · rename_i hs'
      cases hs.symm.trans hs'
      split
      · simp_all
      · rename_i hsign'
        cases hsign.symm.trans hsign'
        exact hfound'

theorem readRest (h : SameParts ps ps') (hfound : readRest content ps s = .ok found)
    (content' : String) :
    ∃ found', Placeholder.readRest content' ps' s = .ok found' ∧ SameParts found found' := by
  unfold Placeholder.readRest at hfound ⊢
  dsimp only at hfound ⊢
  split at hfound
  · cases hfound
    exact ⟨ps', rfl, h⟩
  · split at hfound
    · cases hfound
    · exact (h.put "jdbcType" _).readOptions hfound
  · exact h.readOptions hfound
  · cases hfound

end SameParts

-- ---------------------------------------------------------------------------
-- What parts make of a parameter
-- ---------------------------------------------------------------------------

structure Draft.Alike (d d' : Draft) : Prop where
  options : d.parameter.SameOptions d'.parameter
  handlerName : d'.handlerName = d.handlerName

variable {d d' e : Draft}

theorem applyPart_alike (h : d.Alike d') (hvalue : name ≠ "property" → value' = value)
    (he : applyPart content d name value = .ok e) (content' : String) :
    ∃ e', applyPart content' d' name value' = .ok e' ∧ e.Alike e' ∧
      (name = "javaType" ∨ d'.parameter.type = d.parameter.type →
        e'.parameter.type = e.parameter.type) ∧
      (name = "typeHandler" ∨ d.handlerName.isSome → e.handlerName.isSome) := by
  by_cases hname : name = "property"
  · subst hname
    cases he
    exact ⟨d', rfl, h, by simp, by simp⟩
  · obtain rfl := hvalue hname
    obtain ⟨⟨h₁, h₂, h₃, h₄, h₅⟩, h₆⟩ := h
    unfold applyPart at he ⊢
    dsimp only at he ⊢
    repeat' split at he
    all_goals cases he
    all_goals refine ⟨_, rfl, ⟨⟨?_, ?_, ?_, ?_, ?_⟩, ?_⟩, ?_, ?_⟩
    all_goals simp_all

theorem applyParts_alike (hps : SameParts ps ps') (h : d.Alike d')
    (he : applyParts content d ps = .ok e) (content' : String) :
    ∃ e', applyParts content' d' ps' = .ok e' ∧ e.Alike e' ∧
      (Keyed.contains ps "javaType" ∨ d'.parameter.type = d.parameter.type →
        e'.parameter.type = e.parameter.type) ∧
      (Keyed.contains ps "typeHandler" ∨ d.handlerName.isSome → e.handlerName.isSome) := by
  induction hps generalizing d d' with
  | nil =>
    cases he
    exact ⟨d', rfl, h, by simp [Keyed.contains], by simp [Keyed.contains]⟩
  | @cons a b _ _ hab _ ih =>
    obtain ⟨hname, hvalue⟩ := hab
    simp only [applyParts, List.foldlM_cons, bind_ok] at he ⊢
    obtain ⟨next, hpart, hrest⟩ := he
    obtain ⟨next', hpart', hnext, htype, hhandler⟩ := applyPart_alike h hvalue hpart content'
    obtain ⟨e', he', halike, htypes, hhandlers⟩ := ih hnext hrest
    refine ⟨e', ⟨next', hname ▸ hpart', he'⟩, halike, fun hsaid => htypes ?_,
      fun hsaid => hhandlers ?_⟩
    · simp only [Keyed.contains, List.any_cons, Bool.or_eq_true, beq_iff_eq, or_assoc] at hsaid ⊢
      grind
    · simp only [Keyed.contains, List.any_cons, Bool.or_eq_true, beq_iff_eq, or_assoc] at hsaid ⊢
      grind

theorem isSome_part? (h : parts content = .ok ps) (name : String) :
    (part? content name).isSome = Keyed.contains ps name := by
  rw [part?, h]
  simp [Keyed.get?, Keyed.contains, List.isSome_find?]

end Placeholder

namespace Resolver

open Placeholder

variable {r r' : Resolver} {content content' : String} {p : Parameter} {ps ps' : Parts}

/-- Placeholders whose parts are the same but for the property make parameters that are alike,
whatever the bindings and the type of the argument are. -/
theorem resolve_alike (hr : r'.handlers = r.handlers) (hps : parts content = .ok ps)
    (hps' : parts content' = .ok ps') (h : SameParts ps ps') (hp : r.resolve content = .ok p) :
    ∃ p', r'.resolve content' = .ok p' ∧ WrittenAlike content p p' := by
  obtain ⟨_, draft, hparts, hdraft, handler, hhandler, rfl⟩ := resolve_ok.mp hp
  cases hps.symm.trans hparts
  have hstart : Draft.Alike
      { parameter := { property := Keyed.get? ps "property",
                       type := r.inferType (Keyed.get? ps "property")
                         (Keyed.get? ps "jdbcType") } }
      { parameter := { property := Keyed.get? ps' "property",
                       type := r'.inferType (Keyed.get? ps' "property")
                         (Keyed.get? ps' "jdbcType") } } :=
    ⟨⟨rfl, rfl, rfl, rfl, rfl⟩, rfl⟩
  obtain ⟨draft', hdraft', ⟨hoptions, hname⟩, htype, hsome⟩ :=
    applyParts_alike h hstart hdraft content'
  have hhandlers : ∃ handler', r'.handlerFor draft' = .ok handler' ∧
      (draft.handlerName.isSome ∨ draft'.parameter.type = draft.parameter.type →
        handler' = handler) := by
    unfold handlerFor at hhandler ⊢
    rw [hname, hr]
    cases hnamed : draft.handlerName with
    | some name =>
      rw [hnamed] at hhandler
      exact ⟨handler, hhandler, fun _ => rfl⟩
    | none =>
      rw [hnamed] at hhandler
      cases hhandler
      exact ⟨_, rfl, by simp +contextual⟩
  obtain ⟨handler', hhandler', hsame⟩ := hhandlers
  refine ⟨{ draft'.parameter with handler := handler' }, ?_, hoptions.withHandler _ _, ?_, ?_⟩
  · exact resolve_ok.mpr ⟨ps', draft', hps', hdraft', handler', hhandler', rfl⟩
  · rw [isSome_part? hps]
    exact fun hsaid => htype (.inl hsaid)
  · rw [isSome_part? hps, isSome_part? hps]
    exact fun hsaid => hsame (hsaid.symm.imp (fun h => hsome (.inl h)) fun h => htype (.inl h))

end Resolver

-- ---------------------------------------------------------------------------
-- Contents that start with a name
-- ---------------------------------------------------------------------------

namespace Placeholder

variable {content content' : String} {ps : Parts}

/-- What stands after the name at the start of a placeholder, in its first part. -/
def pathFrom (content : String) : String :=
  String.ofList (pathAfter (afterName content).toList)

theorem endsName_head_pathFrom (content : String) :
    (pathFrom content).toList.head?.all Template.Loop.endsName := by
  have hends := endsName_head_afterName content
  rw [pathFrom, String.toList_ofList, pathAfter]
  rcases Text.head?_trimEnd ((afterName content).toList.takeWhile isNamePart) with hnone | hsame
  · rw [hnone]
    rfl
  · rw [hsame]
    cases hafter : (afterName content).toList with
    | nil => rfl
    | cons c rest =>
      rw [hafter] at hends
      rw [List.takeWhile_cons]
      split
      · exact hends
      · rfl

/-- The parts of a content that starts with a name: its first part is a path from that name, and
what follows says the options. -/
theorem parts_of_firstName (hname : PlainName (firstName content)) :
    parts content = readRest content [("property", firstName content ++ pathFrom content)]
      ((afterName content).toList.dropWhile isNamePart) := by
  obtain ⟨hleading, hrest, c, s, hs, hc⟩ := leading_of_firstName hname rfl
  rw [hs] at hrest
  rw [leading, hs] at hleading
  rw [parts, hs]
  split
  · rename_i heq
    cases heq
  · rename_i heq
    cases heq
    exact absurd rfl hc
  · change readRest content [("property", part ((c :: s).takeWhile isNamePart))]
      ((c :: s).dropWhile isNamePart) = _
    rw [hleading, hrest]
    simp [pathFrom, String.ofList_append]

theorem options_of_firstName (hname : PlainName (firstName content)) :
    options content =
      readRest content [] ((afterName content).toList.dropWhile isNamePart) := by
  obtain ⟨-, hrest, -⟩ := leading_of_firstName hname rfl
  rw [options, hrest]

theorem sameParts_of_afterName (hname : PlainName (firstName content))
    (hname' : PlainName (firstName content')) (hafter : afterName content' = afterName content)
    (h : parts content = .ok ps) :
    ∃ ps', parts content' = .ok ps' ∧ SameParts ps ps' := by
  rw [parts_of_firstName hname] at h
  rw [parts_of_firstName hname', hafter]
  exact (SameParts.property _ _).readRest h content'

theorem property?_of_afterName (hname : PlainName (firstName content))
    (hname' : PlainName (firstName content')) (hafter : afterName content' = afterName content)
    (h : parts content = .ok ps) :
    if Direct content then
      property? content = some (firstName content ++ pathFrom content) ∧
        property? content' = some (firstName content' ++ pathFrom content)
    else property? content' = property? content := by
  obtain ⟨ps', hps', -⟩ := sameParts_of_afterName hname hname' hafter h
  have hpath : pathFrom content' = pathFrom content := by rw [pathFrom, pathFrom, hafter]
  have hfirst := parts_of_firstName hname
  have hsecond := parts_of_firstName hname'
  rw [h] at hfirst
  rw [hps', hafter, hpath] at hsecond
  obtain ⟨read, hread, hothers⟩ := readRest_ok hfirst.symm
  obtain ⟨_, hagain, hread'⟩ :=
    hothers content' [("property", firstName content' ++ pathFrom content)]
  cases hsecond.trans hagain
  obtain ⟨found, hfound, hoptions⟩ := hothers content []
  rw [← options_of_firstName hname] at hfound
  have hsaid : Keyed.get? found "property" = read "property" :=
    (hoptions "property").trans Option.or_none
  have hdirect : Direct content ↔ read "property" = none := by
    simp only [Direct, hfound, Except.ok.injEq, exists_eq_left', hsaid]
  have hproperty : property? content = (read "property").or
      (some (firstName content ++ pathFrom content)) := by
    rw [property?, h]
    exact hread "property"
  have hproperty' : property? content' = (read "property").or
      (some (firstName content' ++ pathFrom content)) := by
    rw [property?, hps']
    exact hread' "property"
  rw [hproperty, hproperty']
  split
  · rename_i hd
    rw [hdirect.mp hd]
    exact ⟨rfl, rfl⟩
  · rename_i hd
    cases hsaid : read "property" with
    | none => exact absurd (hdirect.mpr hsaid) hd
    | some property => rfl

end Placeholder

-- ---------------------------------------------------------------------------
-- Bodies
-- ---------------------------------------------------------------------------

namespace Template

open Placeholder

namespace Loop

variable {l : Loop} {n : Nat} {content body : String}

theorem spanned_bodyFor_iff (l : Loop) (n : Nat) (body : String) :
    delimiters.spanned (l.bodyFor n body) =
        (delimiters.spanned body).recontent (l.contentFor n) ↔
      (delimiters.spanned body).Rereadable delimiters := by
  have hopening : Text.Escapable delimiters.opening := ⟨by decide, by decide, by decide⟩
  have hclosing : Text.Escapable delimiters.closing := ⟨by decide, by decide, by decide⟩
  have hbody : l.bodyFor n body =
      ((delimiters.spanned body).recontent (l.contentFor n)).fill delimiters.enclose := by
    rw [Text.Spanned.fill_recontent, bodyFor, Text.Delimiters.replace_eq_fill]
    rfl
  have hsame : ∀ content, delimiters.closing <:+: (l.contentFor n content).toList ↔
      delimiters.closing <:+: content.toList := by
    intro content
    simpa only [delimiters, List.singleton_infix_iff] using l.closing_mem_contentFor n content
  obtain ⟨hcontents, hliterals⟩ := Text.Delimiters.unescaping_spanned hopening hclosing body
  have hends : ((delimiters.spanned body).recontent (l.contentFor n)).Unescaping := by
    refine ⟨?_, ?_⟩
    · rw [Text.Spanned.contents_recontent, List.forall_mem_map]
      exact fun content hm => getLast?_contentFor (hcontents content hm) n
    · rwa [Text.Spanned.literals_recontent]
  rw [hbody, Text.Delimiters.spanned_fill_enclose_iff hopening hclosing hends,
    Text.Spanned.rereadable_recontent fun content _ => hsame content]

/-- A parameter in the text of an element, next to the parameter of the same placeholder in the
body. All that is written in the placeholder is the same, but for a name of the loop at its
start. -/
structure RenamedParameter (l : Loop) (n : Nat) (content : String) (p p' : Parameter) : Prop where
  written : WrittenAlike content p p'
  renamed : firstName content ∈ l.names → Direct content →
    ∃ path, path.toList.head?.all endsName ∧ p.property = some (firstName content ++ path) ∧
      p'.property = some (elementName (firstName content) n ++ path)
  kept : ¬(firstName content ∈ l.names ∧ Direct content) → p'.property = p.property

variable {r r' : Resolver} {p p' : Parameter}

theorem contentFor_of_mem (hl : ∀ name ∈ l.names, PlainName name)
    (hname : firstName content ∈ l.names) (n : Nat) :
    PlainName (firstName (l.contentFor n content)) ∧
      firstName (l.contentFor n content) = elementName (firstName content) n ∧
      afterName (l.contentFor n content) = afterName content := by
  have hplain := hl _ hname
  obtain ⟨hfirst, hafter⟩ := elementName_append hplain n
  rw [contentFor_of_plain hl, if_pos hname]
  exact ⟨hfirst.symm ▸ plainName_elementName hplain n, hfirst, hafter⟩

theorem contentFor_of_not_mem (hl : ∀ name ∈ l.names, PlainName name)
    (hname : firstName content ∉ l.names) (n : Nat) : l.contentFor n content = content := by
  rw [contentFor_of_plain hl, if_neg hname]

theorem sameParts_contentFor (hl : ∀ name ∈ l.names, PlainName name) (n : Nat) (content : String) :
    (∀ ps, parts content = .ok ps →
      ∃ ps', parts (l.contentFor n content) = .ok ps' ∧ SameParts ps ps') ∧
    ∀ ps', parts (l.contentFor n content) = .ok ps' →
      ∃ ps, parts content = .ok ps ∧ SameParts ps' ps := by
  by_cases hname : firstName content ∈ l.names
  · obtain ⟨hplain, -, hafter⟩ := contentFor_of_mem hl hname n
    exact ⟨fun ps hps => sameParts_of_afterName (hl _ hname) hplain hafter hps,
      fun ps' hps' => sameParts_of_afterName hplain (hl _ hname) hafter.symm hps'⟩
  · rw [contentFor_of_not_mem hl hname]
    exact ⟨fun ps hps => ⟨ps, hps, .refl ps⟩, fun ps' hps' => ⟨ps', hps', .refl ps'⟩⟩

theorem resolve_contentFor (hl : ∀ name ∈ l.names, PlainName name)
    (hr : r'.handlers = r.handlers) (n : Nat) (hp : r.resolve content = .ok p) :
    ∃ p', r'.resolve (l.contentFor n content) = .ok p' ∧ l.RenamedParameter n content p p' := by
  obtain ⟨ps, -, hps, -⟩ := Resolver.resolve_ok.mp hp
  obtain ⟨ps', hps', hsame⟩ := (sameParts_contentFor hl n content).1 ps hps
  obtain ⟨p', hp', hwritten⟩ := Resolver.resolve_alike hr hps hps' hsame hp
  have hproperty := Resolver.property_of_resolve hp
  have hproperty' := Resolver.property_of_resolve hp'
  refine ⟨p', hp', hwritten, fun hname hdirect => ?_, fun hkept => ?_⟩
  · obtain ⟨hplain, hfirst, hafter⟩ := contentFor_of_mem hl hname n
    have hboth := property?_of_afterName (hl _ hname) hplain hafter hps
    rw [if_pos hdirect, hfirst] at hboth
    exact ⟨pathFrom content, endsName_head_pathFrom content, hproperty.trans hboth.1,
      hproperty'.trans hboth.2⟩
  · rw [hproperty, hproperty']
    by_cases hname : firstName content ∈ l.names
    · obtain ⟨hplain, -, hafter⟩ := contentFor_of_mem hl hname n
      have hboth := property?_of_afterName (hl _ hname) hplain hafter hps
      rwa [if_neg fun hdirect => hkept ⟨hname, hdirect⟩] at hboth
    · rw [contentFor_of_not_mem hl hname]

theorem resolve_contentFor_cases (hl : ∀ name ∈ l.names, PlainName name)
    (hr : r'.handlers = r.handlers) (n : Nat) (content : String) :
    (∃ e e', r.resolve content = .error e ∧ r'.resolve (l.contentFor n content) = .error e') ∨
      ∃ p p', r.resolve content = .ok p ∧ r'.resolve (l.contentFor n content) = .ok p' ∧
        l.RenamedParameter n content p p' := by
  cases hp : r.resolve content with
  | ok p =>
    obtain ⟨p', hp', hrenamed⟩ := resolve_contentFor hl hr n hp
    exact .inr ⟨p, p', rfl, hp', hrenamed⟩
  | error e =>
    cases hp' : r'.resolve (l.contentFor n content) with
    | error e' => exact .inl ⟨e, e', rfl, rfl⟩
    | ok p' =>
      obtain ⟨ps', -, hps', -⟩ := Resolver.resolve_ok.mp hp'
      obtain ⟨ps, hps, hsame⟩ := (sameParts_contentFor hl n content).2 ps' hps'
      obtain ⟨p, hback, -⟩ := Resolver.resolve_alike hr.symm hps' hps hsame hp'
      cases hp.symm.trans hback

end Loop

/-- As long as the text of an element can be read again, it is compiled like the body: either both
fail, or they give the same SQL text and parameters that differ in the names of the loop only. It
is cut into other placeholders just where it cannot be read again. -/
theorem renamed_bodies_compile_alike {l : Loop} (hl : ∀ name ∈ l.names, PlainName name) (n : Nat)
    (body : String) {r r' : Resolver} (hr : r'.handlers = r.handlers) :
    (delimiters.spanned (l.bodyFor n body) =
        (delimiters.spanned body).recontent (l.contentFor n) ↔
      (delimiters.spanned body).Rereadable delimiters) ∧
    ((delimiters.spanned body).Rereadable delimiters →
      (∃ e e', r.compile body = .error e ∧ r'.compile (l.bodyFor n body) = .error e') ∨
      ∃ s s', r.compile body = .ok s ∧ r'.compile (l.bodyFor n body) = .ok s' ∧ s'.sql = s.sql ∧
        s'.parameters.length = s.parameters.length ∧
        List.Forall₂ (fun content pair => l.RenamedParameter n content pair.1 pair.2)
          (delimiters.contents body) (s.parameters.zip s'.parameters)) := by
  refine ⟨l.spanned_bodyFor_iff n body, fun hread => ?_⟩
  have hspanned := (l.spanned_bodyFor_iff n body).mpr hread
  have hcontents : delimiters.contents (l.bodyFor n body) =
      (delimiters.contents body).map (l.contentFor n) := by
    rw [← Text.Delimiters.contents_spanned, hspanned, Text.Spanned.contents_recontent,
      Text.Delimiters.contents_spanned]
  have hsql : delimiters.replace (fun _ => marker) (l.bodyFor n body) =
      delimiters.replace (fun _ => marker) body := by
    rw [Text.Delimiters.replace_eq_fill, hspanned, Text.Spanned.fill_recontent,
      ← Text.Delimiters.replace_eq_fill]
  have hparameters := mapM_alike fun content (_ : content ∈ delimiters.contents body) =>
    Loop.resolve_contentFor_cases hl hr n content
  simp only [Resolver.compile, hcontents, hsql, List.mapM_map, Function.comp_def]
  rcases hparameters with ⟨e, e', he, he'⟩ | ⟨ps, ps', hps, hps', hlength, hrenamed⟩
  · exact .inl ⟨e, e', by rw [he]; rfl, by rw [he']; rfl⟩
  · refine .inr ⟨⟨delimiters.replace (fun _ => marker) body, ps⟩,
      ⟨delimiters.replace (fun _ => marker) body, ps'⟩, ?_, ?_, rfl, hlength, hrenamed⟩
    · rw [hps]
      rfl
    · rw [hps']
      rfl

def noteLoop : Loop where
  collection := "notes"
  item := some "x"
  index := some "i"

def mapResolver : Resolver where
  handlers := .standard
  argumentType := .map
  bindings := []

def compiledTo (text : String) : Option (String × List (Option String)) :=
  (mapResolver.compile text).toOption.map fun s => (s.sql, s.parameters.map (·.property))

/-- Placeholders of other names, an option, an escape and a span that is never closed. -/
def noteBody : String :=
  "n = #\x7bx.n,jdbcTypeName=money\x7d or m = #\x7by\x7d at #\x7b i \x7d \\#\x7b #\x7b"

theorem note_bodies_compile_alike :
    (∀ name ∈ noteLoop.names, PlainName name) ∧
      (delimiters.spanned noteBody).Rereadable delimiters ∧
      compiledTo noteBody =
        some ("n = ? or m = ? at ? #\x7b #\x7b", [some "x.n", some "y", some "i"]) ∧
      compiledTo (noteLoop.bodyFor 7 noteBody) =
        some ("n = ? or m = ? at ? #\x7b #\x7b",
          [some "__frch_x_7.n", some "y", some "__frch_i_7"]) ∧
      ∃ s s', mapResolver.compile noteBody = .ok s ∧
        mapResolver.compile (noteLoop.bodyFor 7 noteBody) = .ok s' ∧ s'.sql = s.sql ∧
        s'.parameters.length = s.parameters.length ∧
        List.Forall₂ (fun content pair => noteLoop.RenamedParameter 7 content pair.1 pair.2)
          (delimiters.contents noteBody) (s.parameters.zip s'.parameters) := by
  have hl : ∀ name ∈ noteLoop.names, PlainName name := by decide +kernel
  have hread : (delimiters.spanned noteBody).Rereadable delimiters := by decide +kernel
  have hbody : compiledTo noteBody =
      some ("n = ? or m = ? at ? #\x7b #\x7b", [some "x.n", some "y", some "i"]) := by
    decide +kernel
  refine ⟨hl, hread, hbody, by decide +kernel, ?_⟩
  rcases (renamed_bodies_compile_alike hl 7 noteBody (r := mapResolver) rfl).2 hread with
    ⟨e, _, he, -⟩ | halike
  · rw [compiledTo, he] at hbody
    cases hbody
  · exact halike

/-- The text of an element is cut again: an escaped placeholder is one after that, and a content
ends at a delimiter that was escaped in it. -/
theorem escapes_of_bodies_come_alive :
    compiledTo "\\#\x7bx\x7d" = some ("#\x7bx\x7d", []) ∧
      compiledTo (noteLoop.bodyFor 7 "\\#\x7bx\x7d") = some ("?", [some "x"]) ∧
      compiledTo "#\x7by\\\x7dz\x7d" = some ("?", [some "y\x7dz"]) ∧
      compiledTo (noteLoop.bodyFor 7 "#\x7by\\\x7dz\x7d") = some ("?z\x7d", [some "y"]) := by
  decide +kernel

end Template

end MappedSql
