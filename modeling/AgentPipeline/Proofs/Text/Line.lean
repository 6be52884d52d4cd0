import AgentPipeline.Text.Line
import AgentPipeline.Proofs.Text.Words

/-!
# The lines of a text

A text is one line, or a line with a line feed behind it in front of a further text. Induction on
this (`lines_induction`) follows the definition of pieces. The line is what stands in front of the
line feed, up to white space (`exists_dropLineEnd`), so no word is lost (`words_lines`).

A piece of a text is what stands between whole lines and the rest (`IsPieceBetween`): each cut of a
text at a piece is one of the list of its pieces (`pieces_between`), and each cut of this list is
one of the text (`isPieceBetween_flatten`).
-/

namespace AgentPipeline.Text

variable {cs xs ys : List Char}

/-- A line with its line feed is the first piece. -/
theorem pieces_newline (h : '\n' ∉ xs) :
    pieces (xs ++ '\n' :: ys) = (xs ++ ['\n']) :: pieces ys := by
  induction xs with
  | nil => simp [pieces]
  | cons x xs ih =>
      rw [List.mem_cons, not_or] at h
      rw [List.cons_append, pieces, if_neg (Ne.symm h.1), ih h.2, List.cons_append]

/-- A text without line feeds is one piece. -/
theorem pieces_of_notMem (h : '\n' ∉ cs) (hne : cs ≠ []) : pieces cs = [cs] := by
  induction cs with
  | nil => exact absurd rfl hne
  | cons c cs ih =>
      rw [List.mem_cons, not_or] at h
      rw [pieces, if_neg (Ne.symm h.1)]
      cases cs with
      | nil => rfl
      | cons d cs => rw [ih h.2 (by simp)]

/-- A text is one line, or a line in front of other lines. -/
theorem lines_induction {P : List Char → Prop} (line : ∀ cs, '\n' ∉ cs → P cs)
    (cons : ∀ xs ys, '\n' ∉ xs → P ys → P (xs ++ '\n' :: ys)) (cs : List Char) : P cs := by
  by_cases h : '\n' ∈ cs
  · obtain ⟨xs, ys, rfl, hxs⟩ := List.eq_append_cons_of_mem h
    exact cons xs ys hxs (lines_induction line cons ys)
  · exact line cs h
termination_by cs.length
decreasing_by
  simp only [*, List.length_append, List.length_cons]
  omega

/-- Dropping the end of a line adds nothing. -/
theorem dropLineEnd_subset (piece : List Char) : dropLineEnd piece ⊆ piece := by
  unfold dropLineEnd
  split
  · next rest heq =>
    rw [← List.reverse_reverse piece, heq]
    exact fun c hc => by simpa using .inl (List.mem_reverse.mp hc)
  · next rest heq =>
    rw [← List.reverse_reverse piece, heq]
    exact fun c hc => by simpa using .inl (List.mem_reverse.mp hc)
  · exact List.Subset.refl _

/-- The lines of a text hold nothing that the text does not hold. -/
theorem lines_subset (cs : List Char) : (lines cs).flatten ⊆ cs := by
  intro c hc
  obtain ⟨line, hline, hc⟩ := List.mem_flatten.mp hc
  obtain ⟨piece, hpiece, rfl⟩ := List.mem_map.mp hline
  rw [← flatten_pieces cs]
  exact List.mem_flatten.mpr ⟨piece, hpiece, dropLineEnd_subset piece hc⟩

/-- Between a line and the line feed behind it there is at most white space. -/
theorem exists_dropLineEnd (xs : List Char) :
    ∃ back, xs = dropLineEnd (xs ++ ['\n']) ++ back ∧ Blanks back := by
  rcases List.eq_nil_or_concat xs with rfl | ⟨front, last, rfl⟩
  · exact ⟨[], rfl, blanks_nil⟩
  · by_cases hlast : last = '\r'
    · subst hlast
      exact ⟨['\r'], by simp [dropLineEnd], by simp [Blanks, isBlank]⟩
    · exact ⟨[], by simp [dropLineEnd, hlast], blanks_nil⟩

/-- The line feed at the end of a line is dropped. -/
theorem dropLineEnd_newline (h : '\r' ∉ xs) : dropLineEnd (xs ++ ['\n']) = xs := by
  rcases List.eq_nil_or_concat xs with rfl | ⟨front, last, rfl⟩
  · rfl
  · have hlast : last ≠ '\r' := by
      rintro rfl
      exact h (by simp)
    simp [dropLineEnd, hlast]

/-- Without a line feed nothing is dropped. -/
theorem dropLineEnd_eq_self (h : '\n' ∉ cs) : dropLineEnd cs = cs := by
  have hhead : ∀ rest, cs.reverse ≠ '\n' :: rest := by
    intro rest heq
    exact h (List.mem_reverse.mp (heq ▸ List.mem_cons_self))
  unfold dropLineEnd
  split
  · next heq => exact absurd heq (hhead _)
  · next heq => exact absurd heq (hhead _)
  · rfl

/-- What stands in front of the first line feed is the first line. -/
theorem lines_newline (h : '\n' ∉ xs) :
    lines (xs ++ '\n' :: ys) = dropLineEnd (xs ++ ['\n']) :: lines ys := by
  rw [lines, pieces_newline h, List.map_cons, lines]

/-- A text without line feeds is one line. -/
theorem lines_of_notMem (h : '\n' ∉ cs) (hne : cs ≠ []) : lines cs = [cs] := by
  rw [lines, pieces_of_notMem h hne, List.map_singleton, dropLineEnd_eq_self h]

/-- A text starts its first line with each word that it starts with. -/
theorem exists_lines_append {word : List Char} (hword : ∀ c ∈ word, isBlank c = false)
    (hne : word ≠ []) (rest : List Char) :
    ∃ tail more, lines (word ++ rest) = (word ++ tail) :: more := by
  have hfeed : '\n' ∉ word := fun hmem => absurd (hword _ hmem) (by decide)
  by_cases h : '\n' ∈ rest
  · obtain ⟨xs, ys, rfl, hxs⟩ := List.eq_append_cons_of_mem h
    have hline : ∃ tail, dropLineEnd (word ++ xs ++ ['\n']) = word ++ tail := by
      rcases List.eq_nil_or_concat xs with rfl | ⟨front, last, rfl⟩
      · rw [List.append_nil]
        exact ⟨[], by rw [List.append_nil, dropLineEnd_newline fun hmem =>
          absurd (hword _ hmem) (by decide)]⟩
      · by_cases hlast : last = '\r'
        · exact ⟨front, by simp [dropLineEnd, hlast]⟩
        · exact ⟨front ++ [last], by simp [dropLineEnd, hlast]⟩
    obtain ⟨tail, htail⟩ := hline
    refine ⟨tail, lines ys, ?_⟩
    rw [← List.append_assoc, lines_newline (by simp [hfeed, hxs]), htail]
  · exact ⟨rest, [], lines_of_notMem (by simp [hfeed, h]) (by simp [hne])⟩

/-- There is no line feed in a line. -/
theorem notMem_of_mem_lines : ∀ line ∈ lines cs, '\n' ∉ line := by
  induction cs using lines_induction with
  | line cs h =>
      by_cases hne : cs = []
      · subst hne
        nofun
      · rw [lines_of_notMem h hne, List.forall_mem_singleton]
        exact h
  | cons xs ys h ih =>
      obtain ⟨back, hxs, -⟩ := exists_dropLineEnd xs
      rw [lines_newline h, List.forall_mem_cons]
      refine ⟨fun hmem => h ?_, ih⟩
      rw [hxs]
      exact List.mem_append_left _ hmem

/-- The lines of a text have its words. -/
theorem words_lines (cs : List Char) : (lines cs).flatMap words = words cs := by
  induction cs using lines_induction with
  | line cs hcs =>
      by_cases hne : cs = []
      · subst hne
        rfl
      · rw [lines_of_notMem hcs hne, List.flatMap_singleton]
  | cons xs ys hxs ih =>
      obtain ⟨back, heq, hback⟩ := exists_dropLineEnd xs
      have hline : words xs = words (dropLineEnd (xs ++ ['\n'])) := by
        conv_lhs => rw [heq, words_append_blanks hback]
      rw [lines_newline hxs, List.flatMap_cons, ih, ← hline,
        words_append_cons (by decide)]

/-! ### Cuts at a piece -/

/-- **Whole lines**: no text at all, or one with a line feed at its end. -/
def WholeLines (cs : List Char) : Prop := cs = [] ∨ cs.getLast? = some '\n'

/-- **A piece between** two texts: it stands behind whole lines and is one itself, or the last one,
which may be without a line feed. -/
structure IsPieceBetween (front piece back : List Char) : Prop where
  wholeLines_front : WholeLines front
  ne_nil : piece ≠ []
  notMem_dropLast : '\n' ∉ piece.dropLast
  ends : piece.getLast? = some '\n' ∨ back = []

/-- A line feed at the end makes whole lines. -/
theorem wholeLines_append_newline (xs : List Char) : WholeLines (xs ++ ['\n']) := .inr (by simp)

/-- Whole lines behind whole lines are whole lines. -/
theorem WholeLines.append (hxs : WholeLines xs) (hys : WholeLines ys) : WholeLines (xs ++ ys) := by
  rcases hys with rfl | hys
  · rwa [List.append_nil]
  · exact .inr (by rw [List.getLast?_append, hys, Option.some_or])

/-- What stands behind the first line of whole lines is whole lines. -/
theorem WholeLines.of_append (h : WholeLines (xs ++ '\n' :: ys)) : WholeLines ys := by
  rcases h with h | h
  · simp at h
  · cases ys with
    | nil => exact .inl rfl
    | cons y ys => exact .inr (by simpa using h)

/-- Behind whole lines the pieces start anew. -/
theorem pieces_append (h : WholeLines xs) : pieces (xs ++ ys) = pieces xs ++ pieces ys := by
  induction xs using lines_induction with
  | line xs hxs =>
      rcases h with rfl | h
      · rfl
      · exact absurd (List.mem_of_getLast? h) hxs
  | cons xs zs hxs ih =>
      rw [List.append_assoc, List.cons_append, pieces_newline hxs, pieces_newline hxs,
        ih h.of_append, List.cons_append]

/-- A cut of a text at a piece is a cut of its pieces. -/
theorem pieces_between {front piece back : List Char} (h : IsPieceBetween front piece back) :
    pieces (front ++ piece ++ back) = pieces front ++ piece :: pieces back := by
  rw [List.append_assoc, pieces_append h.wholeLines_front]
  congr 1
  obtain ⟨xs, c, rfl⟩ : ∃ xs c, piece = xs ++ [c] :=
    ⟨_, _, (List.dropLast_append_getLast h.ne_nil).symm⟩
  have hxs : '\n' ∉ xs := by simpa using h.notMem_dropLast
  by_cases hc : c = '\n'
  · subst hc
    rw [List.append_assoc, List.singleton_append, pieces_newline hxs]
  · obtain rfl : back = [] := h.ends.resolve_left (by simpa using hc)
    rw [List.append_nil, pieces_of_notMem (by simp [hxs, Ne.symm hc]) (by simp)]
    rfl

/-- A cut of the pieces of a text is a cut of the text at a piece, and the pieces in front of it
are those of the text in front of it. -/
theorem isPieceBetween_flatten {front back : List (List Char)} {piece : List Char}
    (h : pieces cs = front ++ piece :: back) :
    IsPieceBetween front.flatten piece back.flatten ∧ pieces front.flatten = front := by
  induction cs using lines_induction generalizing front with
  | line cs hcs =>
      by_cases hne : cs = []
      -- a text without a line feed is its only piece
      · subst hne
        simp [pieces] at h
      · rw [pieces_of_notMem hcs hne] at h
        obtain ⟨rfl, rfl, rfl⟩ : front = [] ∧ piece = cs ∧ back = [] := by
          cases front with
          | nil => simpa [eq_comm] using h
          | cons p front => simp at h
        exact ⟨⟨.inl rfl, hne, fun hmem => hcs (List.dropLast_subset piece hmem), .inr rfl⟩, rfl⟩
  | cons xs ys hxs ih =>
      rw [pieces_newline hxs] at h
      -- the piece is the first one, or it stands between those of the further text
      cases front with
      | nil =>
          obtain ⟨rfl, rfl⟩ : xs ++ ['\n'] = piece ∧ pieces ys = back := by simpa using h
          exact ⟨⟨.inl rfl, by simp, by simpa using hxs, .inl (by simp)⟩, rfl⟩
      | cons p front =>
          obtain ⟨rfl, hys⟩ : xs ++ ['\n'] = p ∧ pieces ys = front ++ piece :: back := by
            simpa using h
          obtain ⟨hbetween, hfront⟩ := ih hys
          rw [List.flatten_cons]
          refine ⟨⟨?_, hbetween.ne_nil, hbetween.notMem_dropLast, hbetween.ends⟩, ?_⟩
          · exact (wholeLines_append_newline xs).append hbetween.wholeLines_front
          · rw [pieces_append (wholeLines_append_newline xs), hfront, pieces_newline hxs]
            rfl

/-- The pieces of a text are the texts at which it can be cut. -/
theorem mem_pieces_iff {piece : List Char} : piece ∈ pieces cs ↔
    ∃ front back, cs = front ++ piece ++ back ∧ IsPieceBetween front piece back := by
  constructor
  · intro h
    obtain ⟨front, back, hcut⟩ := List.append_of_mem h
    refine ⟨front.flatten, back.flatten, ?_, (isPieceBetween_flatten hcut).1⟩
    rw [← flatten_pieces cs, hcut]
    simp
  · rintro ⟨front, back, rfl, h⟩
    rw [pieces_between h]
    simp

end AgentPipeline.Text
