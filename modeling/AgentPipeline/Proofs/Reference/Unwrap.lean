import AgentPipeline.Pipeline.Activation
import AgentPipeline.Proofs.Reference.Enclosed
import Mathlib.Algebra.Group.Nat.Even

/-!
# Taking off the braces of a template

A condition may be written as a template. Its text is one template if the first closing braces
outside of single-quoted strings are at its end (`IsTemplate`), and then the condition is the
expression between the braces. Any other text is a condition as it stands.

The braces are taken off whatever starts and ends with them, so this goes wrong for exactly those
texts that do but are not one template (`isUnwrapped_iff`). What is left of them has a closing brace
without an opening one, or ends in the middle of a string (`stray_of_not_isTemplate`).
-/

namespace AgentPipeline.Reference

/-- The text stands between the braces of a template. -/
def Embraced (cs inner : List Char) : Prop := cs = opening ++ inner ++ closing

/-- The text ends outside of single-quoted strings. -/
def EndsUnquoted (front : List Char) : Prop := Even (front.count '\'')

/-- **Single templates**: a text that starts with opening braces and ends with the first closing
braces that stand outside of single-quoted strings. -/
structure IsTemplate (cs inner : List Char) : Prop where
  embraced : Embraced cs inner
  unquoted : EndsUnquoted inner
  first : ∀ front behind, inner ++ closing = front ++ closing ++ behind → EndsUnquoted front →
    behind = []

/-- What a text is as a condition: the expression of the template that it is, or else the text
itself, trimmed. -/
structure IsUnwrapped (text result : List Char) : Prop where
  template : ∀ inner, IsTemplate (Text.trim text) inner → result = Text.trim inner
  other : (∀ inner, ¬IsTemplate (Text.trim text) inner) → result = Text.trim text

variable {cs inner : List Char} {text : String}

/-- What stands between braces is found just where it does. -/
theorem betweenBraces_eq_some_iff : betweenBraces cs = some inner ↔ Embraced cs inner := by
  constructor
  · intro h
    unfold betweenBraces at h
    split at h
    · next rest =>
      split at h
      · next reversed hreverse =>
        obtain rfl := Option.some.inj h
        have hrest : rest = reversed.reverse ++ closing := by
          rw [← List.reverse_reverse rest, hreverse]
          simp [closing]
        rw [hrest]
        rfl
      · cases h
    · cases h
  · rintro rfl
    exact betweenBraces_append inner

/-- There is one text between the braces. -/
theorem embraced_unique {inner' : List Char} (h : Embraced cs inner) (h' : Embraced cs inner') :
    inner = inner' := by
  rw [← betweenBraces_eq_some_iff] at h h'
  exact Option.some.inj (h.symm.trans h')

/-- A text in braces is unwrapped. -/
theorem unwrapTemplate_of_embraced (h : Embraced (Text.trim text.toList) inner) :
    (unwrapTemplate text).toList = Text.trim inner := by
  simp only [unwrapTemplate, betweenBraces_eq_some_iff.mpr h, String.toList_ofList]

/-- Any other text is trimmed. -/
theorem unwrapTemplate_of_not_embraced (h : ∀ inner, ¬Embraced (Text.trim text.toList) inner) :
    (unwrapTemplate text).toList = Text.trim text.toList := by
  have hnone : betweenBraces (Text.trim text.toList) = none :=
    Option.eq_none_iff_forall_not_mem.mpr fun inner hinner =>
      h inner (betweenBraces_eq_some_iff.mp hinner)
  simp only [unwrapTemplate, hnone, String.toList_ofList]

/-- Without its braces a text is shorter. -/
theorem Embraced.trim_ne (h : Embraced cs inner) : Text.trim inner ≠ cs := by
  intro heq
  obtain ⟨front, back, hinner, -, -⟩ := Text.exists_trim inner
  have hlength : inner.length = front.length + (Text.trim inner).length + back.length := by
    rw [← List.length_append, ← List.length_append, ← hinner]
  rw [heq, h] at hlength
  simp only [opening, closing, List.length_append, List.length_cons] at hlength
  omega

/-- **Stray delimiters**: what stands between the braces of a text that is not one template has a
closing brace outside of strings, or ends inside of a string. -/
theorem stray_of_not_isTemplate (hembraced : Embraced cs inner) (h : ¬IsTemplate cs inner) :
    ¬EndsUnquoted inner ∨
      ∃ front behind, inner = front ++ '\x7d' :: behind ∧ EndsUnquoted front := by
  by_contra hnone
  push Not at hnone
  obtain ⟨hunquoted, hplain⟩ := hnone
  refine h ⟨hembraced, hunquoted, fun front behind heq hfront => ?_⟩
  -- closing braces in front of the last ones would start in the expression
  rw [List.append_assoc] at heq
  rcases List.append_eq_append_iff.mp heq with ⟨more, rfl, hmore⟩ | ⟨more, rfl, hmore⟩
  · have hlength := congrArg List.length hmore
    simp only [closing, List.length_append, List.length_cons, List.length_nil] at hlength
    exact List.eq_nil_of_length_eq_zero (by omega)
  · cases more with
    | nil =>
        rw [List.nil_append] at hmore
        exact List.self_eq_append_right.mp hmore.symm
    | cons c more =>
        have hc : c = '\x7d' := (List.cons.inj hmore).1.symm
        exact absurd hfront (hplain front more (by rw [hc]))

/-- **Where the braces are taken off rightly**: all texts but those that start and end with braces
without being one template. -/
theorem isUnwrapped_iff : IsUnwrapped text.toList (unwrapTemplate text).toList ↔
    ∀ inner, Embraced (Text.trim text.toList) inner → IsTemplate (Text.trim text.toList) inner := by
  constructor
  · intro h inner hembraced
    by_contra hnot
    have hall : ∀ inner', ¬IsTemplate (Text.trim text.toList) inner' := by
      intro inner' htemplate
      obtain rfl := embraced_unique hembraced htemplate.embraced
      exact hnot htemplate
    exact hembraced.trim_ne ((unwrapTemplate_of_embraced hembraced).symm.trans (h.other hall))
  · intro h
    refine ⟨fun inner htemplate => unwrapTemplate_of_embraced htemplate.embraced, fun hnone => ?_⟩
    exact unwrapTemplate_of_not_embraced fun inner hembraced => hnone inner (h inner hembraced)

/-- **Taking off the braces.** It goes right unless the text starts and ends with braces that do not
belong together. In that case they are taken off as well, and what is left has stray delimiters. -/
theorem unwrapTemplate_cases (text : String) :
    (IsUnwrapped text.toList (unwrapTemplate text).toList ↔
      ∀ inner, Embraced (Text.trim text.toList) inner →
        IsTemplate (Text.trim text.toList) inner) ∧
      ∀ inner, Embraced (Text.trim text.toList) inner →
        ¬IsTemplate (Text.trim text.toList) inner →
          (unwrapTemplate text).toList = Text.trim inner ∧
            (¬EndsUnquoted inner ∨
              ∃ front behind, inner = front ++ '\x7d' :: behind ∧ EndsUnquoted front) :=
  ⟨isUnwrapped_iff, fun _ hembraced hnot =>
    ⟨unwrapTemplate_of_embraced hembraced, stray_of_not_isTemplate hembraced hnot⟩⟩

/-- Two templates with an operator in between start and end with braces. -/
theorem embraced_joined :
    Embraced (Text.trim "$\x7b\x7b a \x7d\x7d && $\x7b\x7b b \x7d\x7d".toList)
      " a \x7d\x7d && $\x7b\x7b b ".toList := by
  unfold Embraced
  decide

/-- The braces at their ends do not belong together. -/
theorem not_isTemplate_joined :
    ¬IsTemplate (Text.trim "$\x7b\x7b a \x7d\x7d && $\x7b\x7b b \x7d\x7d".toList)
      " a \x7d\x7d && $\x7b\x7b b ".toList := by
  intro h
  have hbehind := h.first " a ".toList " && $\x7b\x7b b \x7d\x7d".toList (by decide) ⟨0, by decide⟩
  exact absurd hbehind (by decide)

/-- The closing braces of the first template and the opening braces of the second one are left. -/
theorem unwrapTemplate_cases_joined :
    ¬IsTemplate (Text.trim "$\x7b\x7b a \x7d\x7d && $\x7b\x7b b \x7d\x7d".toList)
        " a \x7d\x7d && $\x7b\x7b b ".toList ∧
      (unwrapTemplate "$\x7b\x7b a \x7d\x7d && $\x7b\x7b b \x7d\x7d").toList =
        Text.trim " a \x7d\x7d && $\x7b\x7b b ".toList :=
  ⟨not_isTemplate_joined,
    ((unwrapTemplate_cases _).2 _ embraced_joined not_isTemplate_joined).1⟩

/-- Two templates with an operator in between are no single template, but their outer braces are
taken off. As a condition of the workflow they become two leaves with stray braces. -/
theorem not_isUnwrapped_joined :
    ¬IsUnwrapped "$\x7b\x7b a \x7d\x7d && $\x7b\x7b b \x7d\x7d".toList
        (unwrapTemplate "$\x7b\x7b a \x7d\x7d && $\x7b\x7b b \x7d\x7d").toList ∧
      Activation.readCondition "$\x7b\x7b a \x7d\x7d && $\x7b\x7b b \x7d\x7d" =
        .ok (.and (Condition.leaf "a \x7d\x7d") (Condition.leaf "$\x7b\x7b b")) := by
  have hresult : unwrapTemplate "$\x7b\x7b a \x7d\x7d && $\x7b\x7b b \x7d\x7d" =
      "a \x7d\x7d && $\x7b\x7b b" := by decide
  refine ⟨fun h => not_isTemplate_joined (isUnwrapped_iff.mp h _ embraced_joined), ?_⟩
  have hleaf (text : String) : Condition.Derives .unary [.literal text] (Condition.leaf text) :=
    .primary (.literal text)
  have hparse : Condition.parse "a \x7d\x7d && $\x7b\x7b b" =
      .ok (.and (Condition.leaf "a \x7d\x7d") (Condition.leaf "$\x7b\x7b b")) :=
    Condition.parse_eq_ok_iff.mpr ⟨[⟨.literal "a \x7d\x7d", 0⟩, ⟨.and, 5⟩,
      ⟨.literal "$\x7b\x7b b", 8⟩], by decide, .conjunct (.and (.unary (hleaf _)) (hleaf _))⟩
  rw [Activation.readCondition, hresult, hparse]
  rfl

end AgentPipeline.Reference
