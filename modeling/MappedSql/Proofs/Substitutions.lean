import MappedSql.Proofs.Characters
import MappedSql.Proofs.Rereading

/-!
# Texts with and without substitutions

A text without a live substitution is taken for literal text, and appended as it stands. A text
with one is cut, and its literal parts come without the backslashes of their escapes. So what is
appended depends on whether there is a live substitution somewhere: without one, an escape keeps
its backslash, where it is the first that looks like a substitution.
-/

namespace MappedSql

namespace Text.Delimiters

variable {d : Delimiters} {text : String}

def FirstEscaped (d : Delimiters) (text : String) : Prop :=
  ∃ before after, text.toList = before ++ '\\' :: d.opening ++ after ∧ ¬d.opening <:+: before

theorem firstEscaped_iff_cut (h : Escapable d.opening) :
    d.FirstEscaped text ↔
      ∃ before after, cut d.opening text.toList = some (before ++ ['\\'], after) := by
  refine exists_congr fun before => exists_congr fun after => ?_
  have hfirst : d.opening <:+: before ++ ['\\'] ++ d.opening.dropLast ↔ d.opening <:+: before := by
    rw [List.append_assoc, List.singleton_append, infix_append_cons_iff h.no_backslash]
    exact or_iff_left (absent_dropLast h.ne_nil)
  rw [cut_eq_some_iff h.ne_nil, hfirst, List.append_assoc before ['\\'], List.singleton_append]

theorem contents_eq_nil_iff : d.contents text = [] ↔ d.hasSpans text = false := by
  rw [contents, hasSpans, List.filterMap_eq_nil_iff, List.any_eq_false]
  simp

/-- A text without a span loses nothing when it is cut, but the backslash of an escape where no
live opening delimiter stands before it. -/
theorem replace_eq_self_iff (hopening : Escapable d.opening) (hclosing : Escapable d.closing)
    (hspans : d.hasSpans text = false) (f : String → String) :
    d.replace f text = text ↔ ¬d.FirstEscaped text := by
  -- Where there is no content, it does not matter what is filled in.
  have hcontents : (d.spanned text).contents = [] := by
    rw [contents_spanned, contents_eq_nil_iff, hspans]
  have hreplace : d.replace f text = (d.spanned text).fill d.enclose := by
    rw [replace_eq_fill, Spanned.fill_eq_weave, Spanned.fill_eq_weave, hcontents, List.map_nil,
      List.map_nil]
  have hpieces := pieces_eq hopening.ne_nil hclosing.ne_nil text
  rw [firstEscaped_iff_cut hopening, hreplace, spanned, hpieces]
  cases hcut : cut d.opening text.toList with
  | none =>
    rw [piecesAfter_unopened hcut]
    simp [Spanned.ofPieces, Spanned.prepend, Spanned.fill]
  | some parts =>
    obtain ⟨before, after⟩ := parts
    have htext := eq_append_of_cut hcut
    by_cases hlast : before.getLast? = some '\\'
    · obtain ⟨before, rfl⟩ := List.getLast?_eq_some_iff.mp hlast
      refine iff_of_false (fun heq => ?_) (not_not.mpr ⟨before, after, rfl⟩)
      -- The text that is put together is shorter by the backslash at least.
      have hshorter : ((Spanned.ofPieces (d.piecesAfter hopening.ne_nil d.opening.getLast?
          after)).fill d.enclose).toList.length ≤ after.length :=
        (length_fill_enclose hclosing.ne_nil hopening.getLast?_ne hclosing.getLast?_ne
          hopening.getLast?_ne).1
      have hlength := congrArg (·.toList.length) heq
      rw [piecesAfter_escaped hcut (by simp) hlast, Spanned.ofPieces,
        Spanned.fill_prepend] at hlength
      simp only [htext, String.toList_append, String.toList_ofList, List.dropLast_concat,
        List.length_append, List.length_cons, List.length_nil] at hlength
      omega
    · have hunclosed : spanContent d.closing after = none := by
        by_contra hspan
        obtain ⟨⟨content, rest⟩, hspan⟩ := Option.ne_none_iff_exists'.mp hspan
        rw [hasSpans, hpieces, piecesAfter_opened hcut (by simpa using hlast), piecesOpened,
          hspan] at hspans
        simp [Piece.content?] at hspans
      rw [piecesAfter_opened hcut (by simpa using hlast), piecesOpened, hunclosed, ← htext]
      refine iff_of_true (by simp [Spanned.ofPieces, Spanned.prepend, Spanned.fill]) ?_
      rintro ⟨before', _, ⟨⟩⟩
      simp at hlast

theorem replaceM_ok {ε : Type} {f : String → Except ε String} {g : String → String}
    (h : ∀ content ∈ d.contents text, f content = .ok (g content)) :
    d.replaceM f text = .ok (d.replace g text) := by
  have htexts : (d.spanned text).contents.mapM f = .ok ((d.spanned text).contents.map g) := by
    rw [contents_spanned, mapM_ok, List.forall₂_map_right_iff, List.forall₂_same]
    exact h
  rw [replaceM_eq_fillM, replace_eq_fill, Spanned.fillM, htexts, Spanned.fill_eq_weave]
  rfl

end Text.Delimiters

namespace Template

-- ---------------------------------------------------------------------------
-- What stands in the place of a substitution
-- ---------------------------------------------------------------------------

namespace Context

/-- The argument is bound as `value`, too, when it is a single value. -/
def withValue (c : Context) : Context :=
  if c.parameter.isNull then c.bind "value" .null
  else if c.parameter.isSimple then c.bind "value" c.parameter
  else c

def textOf (c : Context) (expression : String) : String :=
  Node.substitute ((Expression.evaluate c.bindings expression).toOption.getD .null)

end Context

namespace Node

open Text (Delimiters)

theorem outcome_bindValue (c : Context) : bindValue.outcome c = (.ok (), c.withValue) := by
  rw [bindValue, Action.outcome_bind, Context.withValue]
  dsimp only [Action.outcome_get]
  split
  · rfl
  · split <;> rfl

theorem substitution_eq (c : Context) (filter : Option Filter) (expression : String) :
    substitution c.bindings filter expression =
      filter.elim (.ok (c.textOf expression)) fun f => f.check (c.textOf expression) := by
  unfold substitution Context.textOf
  cases Expression.evaluate c.bindings expression with
  | ok value => cases filter <;> rfl
  | error e => cases filter <;> rfl

theorem substitution_ok {c : Context} {filter : Option Filter} {expression : String}
    (h : ∀ f ∈ filter, f.pattern.occursIn (c.textOf expression)) :
    substitution c.bindings filter expression = .ok (c.textOf expression) := by
  rw [substitution_eq]
  cases filter with
  | none => rfl
  | some f => exact if_pos (h f rfl)

section
variable {text : String} {filter : Option Filter} {c : Context}

theorem outcome_substituted
    (hfilter : ∀ f ∈ filter, ∀ expression ∈ substitutions.contents text,
      f.pattern.occursIn (c.withValue.textOf expression)) :
    (substituted text filter).render.outcome c =
      (.ok true, c.withValue.append (substitutions.replace c.withValue.textOf text)) := by
  have hreplace : substitutions.replaceM (substitution c.withValue.bindings filter) text =
      .ok (substitutions.replace c.withValue.textOf text) :=
    Delimiters.replaceM_ok fun expression hmem =>
      substitution_ok fun f hf => hfilter f hf expression hmem
  simp only [render, renderText, Action.outcome_bind, outcome_bindValue, Action.outcome_get,
    hreplace]
  rfl

theorem ofText_of_spans (hspans : substitutions.hasSpans text = true) :
    ofText text filter = substituted text filter :=
  if_pos hspans

theorem ofText_of_no_spans (hspans : substitutions.hasSpans text = false) :
    ofText text filter = literal text := by
  rw [ofText, hspans]
  rfl

end

/-- A text with a live substitution is appended with every live substitution replaced and all its
escapes decoded. Without one it is appended as it stands, which is the same just when the first
that looks like a substitution is not escaped. -/
theorem texts_append_substituted (text : String) (filter : Option Filter) (c : Context)
    (hfilter : ∀ f ∈ filter, ∀ expression ∈ substitutions.contents text,
      f.pattern.occursIn (c.withValue.textOf expression)) :
    (substitutions.hasSpans text = true →
      (ofText text filter).render.outcome c =
        (.ok true, c.withValue.append (substitutions.replace c.withValue.textOf text))) ∧
    (substitutions.hasSpans text = false →
      (ofText text filter).render.outcome c = (.ok true, c.append text) ∧
      (text = substitutions.replace c.withValue.textOf text ↔
        ¬substitutions.FirstEscaped text)) := by
  refine ⟨fun hspans => ?_, fun hspans => ⟨?_, ?_⟩⟩
  · rw [ofText_of_spans hspans, outcome_substituted hfilter]
  · rw [ofText_of_no_spans hspans]
    rfl
  · have hopening : Text.Escapable substitutions.opening := ⟨by decide, by decide, by decide⟩
    have hclosing : Text.Escapable substitutions.closing := ⟨by decide, by decide, by decide⟩
    exact eq_comm.trans (Delimiters.replace_eq_self_iff hopening hclosing hspans _)

def smallLetters : Option Filter :=
  (Filter.ofText "[a-z]+").toOption

def ordered : Context :=
  (Context.start (.ofInt 2) none).bind "by" (.ofText "n")

def orderText : String :=
  "order by $\x7bby\x7d \\$\x7bby\x7d"

theorem textOf_by : ordered.withValue.textOf "by" = "n" := by
  rw [Context.textOf, Expression.evaluate_path
    (show Expression.tokens "by" = .ok [.path "by"] by with_unfolding_all rfl)]
  decide +kernel

/-- A text with a substitution and an escape, and one where a substitution that is never closed
begins before the escape. -/
theorem order_is_appended :
    smallLetters.isSome ∧
      (∀ f ∈ smallLetters, ∀ expression ∈ substitutions.contents orderText,
        f.pattern.occursIn (ordered.withValue.textOf expression)) ∧
      (ofText orderText smallLetters).render.outcome ordered =
        (.ok true, ordered.withValue.append "order by n $\x7bby\x7d") ∧
      (ofText "$\x7b \\$\x7b").render.outcome ordered =
        (.ok true, ordered.append "$\x7b \\$\x7b") ∧
      ¬substitutions.FirstEscaped "$\x7b \\$\x7b" := by
  have hcontents : substitutions.contents orderText = ["by"] := by decide +kernel
  have hfilter : ∀ f ∈ smallLetters, ∀ expression ∈ substitutions.contents orderText,
      f.pattern.occursIn (ordered.withValue.textOf expression) := by
    simp only [hcontents, List.forall_mem_singleton, textOf_by]
    decide +kernel
  have hsql : substitutions.replace ordered.withValue.textOf orderText =
      "order by n $\x7bby\x7d" := by
    rw [Delimiters.replace_eq_fill, Text.Spanned.fill_eq_weave, Delimiters.contents_spanned,
      hcontents, List.map_singleton, textOf_by]
    decide +kernel
  obtain ⟨hopen, hsame⟩ :=
    (texts_append_substituted "$\x7b \\$\x7b" none ordered nofun).2 (by decide +kernel)
  refine ⟨by decide +kernel, hfilter, ?_, hopen, hsame.mp ?_⟩
  · rw [(texts_append_substituted orderText smallLetters ordered hfilter).1 (by decide +kernel),
      hsql]
  · decide +kernel

/-- An escape is decoded beside a substitution, but not alone. -/
theorem escape_alone_keeps_backslash :
    substitutions.replace ordered.withValue.textOf "\\$\x7bby\x7d" = "$\x7bby\x7d" ∧
      (ofText "\\$\x7bby\x7d").render.outcome ordered =
        (.ok true, ordered.append "\\$\x7bby\x7d") ∧
      (ofText "\\$\x7bby\x7d, $\x7bby\x7d").render.outcome ordered =
        (.ok true, ordered.withValue.append "$\x7bby\x7d, n") := by
  have hbeside : substitutions.replace ordered.withValue.textOf
      "\\$\x7bby\x7d, $\x7bby\x7d" = "$\x7bby\x7d, n" := by
    have hcontents : substitutions.contents "\\$\x7bby\x7d, $\x7bby\x7d" = ["by"] := by
      decide +kernel
    rw [Delimiters.replace_eq_fill, Text.Spanned.fill_eq_weave, Delimiters.contents_spanned,
      hcontents, List.map_singleton, textOf_by]
    decide +kernel
  refine ⟨by decide +kernel, ?_, ?_⟩
  · rw [ofText_of_no_spans (by decide +kernel)]
    rfl
  · rw [ofText_of_spans (by decide +kernel), @outcome_substituted _ none _ nofun, hbeside]

end Node

end Template

end MappedSql
