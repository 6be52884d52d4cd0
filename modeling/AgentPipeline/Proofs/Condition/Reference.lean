import AgentPipeline.Condition.Reference
import AgentPipeline.Proofs.Condition.Meaning

/-!
# Conditions in templates

An output of a job is a template, and the runner reads the expression between its braces.
The braces come off again (`unwrapTemplate_wrapTemplate`) if the expression is trimmed and
not empty, as the text of every readable condition is.
-/

namespace AgentPipeline

namespace Reference

open Text (Trimmed)

theorem betweenBraces_append (inner : List Char) :
    betweenBraces ('$' :: '\x7b' :: '\x7b' :: inner ++ ['\x7d', '\x7d']) = some inner := by
  simp [betweenBraces]

/-- **Templates**: the expression of a template is found between its braces. -/
theorem unwrapTemplate_wrapTemplate {text : String} (h : Trimmed text.toList)
    (hne : text ≠ "") : unwrapTemplate (wrapTemplate text) = text := by
  have htext : (wrapTemplate text).toList =
      '$' :: '\x7b' :: '\x7b' :: ([' '] ++ text.toList ++ [' ']) ++ ['\x7d', '\x7d'] := by
    simp [wrapTemplate]
  have hlast : (wrapTemplate text).toList.getLast? = some '\x7d' := by
    simp [htext, List.getLast?_cons]
  have htrimmed : Trimmed (wrapTemplate text).toList :=
    Text.trimmed_of_ends (by rw [htext]; rfl) hlast (by decide) (by decide)
  have hspace : Text.Blanks [' '] := Text.blanks_cons.mpr ⟨by decide, Text.blanks_nil⟩
  have hinner : Text.trim ([' '] ++ text.toList ++ [' ']) = text.toList :=
    Text.trim_append hspace h (by simpa using hne) hspace
  rw [unwrapTemplate, Text.trim_eq_self htrimmed (by simp [htext]), htext]
  simp only [betweenBraces_append, hinner, String.ofList_toList]

/-! ### Texts without templates -/

theorem templateAt_eq_none {cs : List Char} (h : '$' ∉ cs ∨ '\x7b' ∉ cs) :
    templateAt cs = none := by
  unfold templateAt
  split
  · simp at h
  · rfl

theorem templatesFrom_eq_nil {cs : List Char} (h : '$' ∉ cs ∨ '\x7b' ∉ cs) (skip : Nat) :
    templatesFrom skip cs = [] := by
  induction cs generalizing skip with
  | nil => rfl
  | cons c cs ih =>
      have hcs : '$' ∉ cs ∨ '\x7b' ∉ cs :=
        h.imp List.not_mem_of_not_mem_cons List.not_mem_of_not_mem_cons
      cases skip with
      | zero => rw [templatesFrom, templateAt_eq_none h, ih hcs]
      | succ skip => rw [templatesFrom, ih hcs]

/-- A text has no templates if it lacks one of the characters that each template starts
with. -/
theorem templates_eq_nil {text : String} (h : '$' ∉ text.toList ∨ '\x7b' ∉ text.toList) :
    templates text = [] := by
  rw [templates, templatesFrom_eq_nil h, List.map_nil]

/-- A text has the bytes of each of its characters. -/
theorem utf8EncodeChar_subset {c : Char} {text : String} (h : c ∈ text.toList) :
    String.utf8EncodeChar c ⊆ text.toByteArray.data.toList := by
  obtain ⟨cs, rfl⟩ : ∃ cs, text = String.ofList cs := ⟨text.toList, by simp⟩
  rw [String.toList_ofList] at h
  change _ ⊆ cs.utf8Encode.data.toList
  rw [List.utf8Encode, List.data_toByteArray]
  intro b hb
  simpa using ⟨c, h, hb⟩

end Reference

namespace Condition

open Text (Trimmed)

/-- The text of a readable condition is trimmed. -/
theorem Readable.trimmed_render {c : Condition} (h : Readable c) :
    Trimmed c.render.toList := by
  obtain ⟨t, h⟩ := h
  have hopen : Text.isBlank '(' = false := by decide
  have hbang : Text.isBlank '!' = false := by decide
  have hclose : Text.isBlank ')' = false := by decide
  cases h with
  | atom _ hliteral => exact hliteral.trimmed
  | and | or =>
      refine Text.trimmed_of_ends ?_ ?_ hopen hclose <;> simp [render, List.getLast?_cons]
  | not =>
      refine Text.trimmed_of_ends ?_ ?_ hbang hclose <;> simp [render, List.getLast?_cons]

theorem Readable.render_ne {c : Condition} (h : Readable c) : c.render ≠ "" := by
  obtain ⟨t, h⟩ := h
  cases h with
  | atom _ hliteral => simpa using hliteral.ne_nil
  | and | or | not => simp [render]

end Condition

end AgentPipeline
