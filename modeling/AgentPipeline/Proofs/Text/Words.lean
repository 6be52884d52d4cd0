import AgentPipeline.Proofs.Text.Trim

/-!
# The words of a text

The words of a text are the pieces between its characters of white space, the empty ones left
out (`words_eq_splitOnP`). So white space cuts a text in two whose words may be found one by one
(`words_append_cons`), and how much of it there is does not matter.
-/

namespace AgentPipeline.Text

variable {c : Char} {xs ys : List Char}

theorem words_eq_splitOnP (cs : List Char) :
    words cs = (cs.splitOnP isBlank).filter (· ≠ []) := by
  induction cs with
  | nil => rfl
  | cons c cs ih =>
      unfold words
      rw [List.splitOnP_cons_eq_if_modifyHead]
      split
      · simpa using ih
      · cases cs with
        | nil => rfl
        | cons d cs =>
            dsimp only
            rw [ih, List.splitOnP_cons_eq_if_modifyHead]
            split
            · simp
            · -- the word that starts with the second character is continued to the front
              obtain ⟨piece, pieces, hpieces⟩ :=
                List.exists_cons_of_ne_nil (List.splitOnP_ne_nil isBlank cs)
              simp [hpieces]

/-- **White space separates words.** -/
theorem words_append_cons (hc : isBlank c = true) :
    words (xs ++ c :: ys) = words xs ++ words ys := by
  simp only [words_eq_splitOnP, List.splitOnP_append_cons xs ys hc, List.filter_append]

theorem words_append_blanks {back : List Char} (hback : Blanks back) :
    words (xs ++ back) = words xs := by
  induction back generalizing xs with
  | nil => rw [List.append_nil]
  | cons c back ih =>
      rw [blanks_cons] at hback
      rw [words_append_cons hback.1, ← List.nil_append back, ih hback.2]
      exact List.append_nil _

end AgentPipeline.Text
