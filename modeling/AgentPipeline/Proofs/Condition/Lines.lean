import AgentPipeline.Proofs.Condition.Reflow
import AgentPipeline.Proofs.Text.Words

/-!
# The lines of an expression

What respacing keeps of a text are its words, between quotes as well as outside of them
(`Respaced.collapse_eq`). So the lines of an expression have its words at both grains, and the
strings between quotes are neither changed nor spread over several lines
(`wraps_breakLines_breakAtParens`). Nothing is asked of the text, which may leave quotes or
parentheses open.
-/

namespace AgentPipeline

open Quotes (outside)

namespace Respaced

variable {gap : Bool} {q : Quotes} {a b : List Char}

/-- Respacing keeps the words, behind any text that white space separates from what is dropped. -/
theorem words_append (h : Respaced gap q a b) (front : List Char)
    (hfront : gap = true → front = []) :
    Text.words (front ++ a) = Text.words (front ++ b) := by
  induction h generalizing front with
  | ends ha => rw [Text.words_append_blanks ha, List.append_nil]
  | @keep _ _ c a b _ _ ih =>
      by_cases hc : Text.isBlank c = true
      · rw [Text.words_append_cons hc, Text.words_append_cons hc]
        exact congrArg _ (ih [] nofun)
      · have hkept := ih (front ++ [c]) nofun
        rwa [List.append_assoc, List.append_assoc] at hkept
  | space hc hd _ ih =>
      rw [Text.words_append_cons hc, Text.words_append_cons hd]
      exact congrArg _ (ih [] fun _ => rfl)
  | @drop c a _ hc _ ih =>
      obtain rfl := hfront rfl
      have hdrop : Text.words ([] ++ c :: a) = Text.words a := Text.words_append_cons hc
      rw [hdrop]
      exact ih [] fun _ => rfl

/-- **Respacing keeps the words.** -/
theorem collapse_eq (h : Respaced gap q a b) : Text.collapse b = Text.collapse a := by
  rw [Text.collapse, Text.collapse]
  exact congrArg _ (h.words_append [] fun _ => rfl).symm

end Respaced

namespace Wrap

variable {text line : List Char} {lines : List (List Char)}

/-- Joined lines have the words of the lines. -/
theorem words_join (lines : List (List Char)) :
    Text.words (join lines) = lines.flatMap Text.words := by
  induction lines with
  | nil => rfl
  | cons line lines ih =>
      by_cases hne : lines = []
      · subst hne
        simp [join_singleton]
      · rw [join_cons hne, Text.words_append_cons (by decide), ih, List.flatMap_cons]

/-- Only the last line may leave quotes open. -/
theorem AreLines.after_of_mem_dropLast (h : AreLines lines text) (hline : line ∈ lines.dropLast) :
    outside.after line = outside := by
  have hne : lines ≠ [] := List.ne_nil_of_mem (List.dropLast_subset lines hline)
  have hclosed := h.closed
  rw [← List.dropLast_concat_getLast hne] at hclosed
  exact (List.pairwise_append.mp hclosed).2.2 line hline _ List.mem_cons_self

namespace Str

/-- **Some lines wrap a text.** -/
structure Wraps (lines : List String) (text : String) : Prop where
  /-- joined by spaces, they have the words of the text -/
  collapse : Text.Str.collapse (" ".intercalate lines) = Text.Str.collapse text
  /-- between quotes, they have its very characters -/
  respaced : Respaced true outside text.toList (" ".intercalate lines).toList
  /-- no line but the last one ends between quotes -/
  closed : ∀ line ∈ lines.dropLast, outside.after line.toList = outside

theorem wraps_of_areLines {lines : List (List Char)} {text : String}
    (h : AreLines lines text.toList) : Wraps (lines.map String.ofList) text := by
  have hrespaced : Respaced true outside text.toList
      (" ".intercalate (lines.map String.ofList)).toList := by
    rw [toList_intercalate_ofList]
    exact h.respaced
  refine ⟨congrArg String.ofList hrespaced.collapse_eq, hrespaced, ?_⟩
  rw [← List.map_dropLast, List.forall_mem_map]
  intro line hline
  rw [String.toList_ofList]
  exact h.after_of_mem_dropLast hline

/-- **Breaking an expression loses nothing.** Whatever the text is, at both grains its lines have
its words, no string between quotes is changed, and none is spread over several lines. -/
theorem wraps_breakLines_breakAtParens (text : String) :
    Wraps (breakLines text) text ∧ Wraps (breakAtParens text) text :=
  ⟨wraps_of_areLines (areLines_breakLines text.toList),
    wraps_of_areLines (areLines_breakAtParens text.toList)⟩

end Str

end Wrap

end AgentPipeline
