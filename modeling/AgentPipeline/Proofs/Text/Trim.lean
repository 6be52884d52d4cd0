import AgentPipeline.Text.Blank
import Mathlib.Data.List.DropRight

/-!
# Trimming

A text is **trimmed** if no white space stands at its ends. Trimming a text cuts it into
white space, a trimmed text and white space again (`exists_trim`), and it finds the middle
of every text that is cut in this way (`trim_append`), unless the middle is empty.

What is cut off need not be white space. The facts about the ends of a text hold whatever characters
are dropped there (`exists_dropEnds`, `head?_dropEnds`, `getLast?_dropTail`).
-/

namespace AgentPipeline.Text

/-- A text of white space only. -/
def Blanks (cs : List Char) : Prop := ∀ c ∈ cs, isBlank c = true

/-- A text without white space at its ends. -/
def Trimmed (cs : List Char) : Prop :=
  (∀ c ∈ cs.head?, isBlank c = false) ∧ ∀ c ∈ cs.getLast?, isBlank c = false

/-- No text is white space. -/
theorem blanks_nil : Blanks [] := nofun

/-- White space has white space at its front. -/
theorem blanks_cons {c : Char} {cs : List Char} :
    Blanks (c :: cs) ↔ isBlank c = true ∧ Blanks cs := List.forall_mem_cons

/-- White space is none of the other characters. -/
theorem ne_of_isBlank {c d : Char} (hc : isBlank c = true) (hd : isBlank d = false) :
    c ≠ d := by
  rintro rfl
  simp [hc] at hd

/-- Digits are no white space. -/
theorem isBlank_of_isDigit {c : Char} (h : c.isDigit = true) : isBlank c = false := by
  have hrange : 48 ≤ c.toNat ∧ c.toNat ≤ 57 := by
    simpa [Char.isDigit, UInt32.le_iff_toNat_le] using h
  simp only [isBlank, Bool.or_eq_false_iff, Bool.and_eq_false_iff, decide_eq_false_iff_not,
    beq_eq_false_iff_ne]
  omega

/-- Cutting a text in front of its tail. -/
theorem exists_dropTail (p : Char → Bool) (cs : List Char) :
    ∃ back, cs = dropTail p cs ++ back ∧ ∀ c ∈ back, p c = true :=
  ⟨cs.rtakeWhile p, List.rdropWhile_append_rtakeWhile.symm,
    fun _ hc => List.mem_rtakeWhile_imp hc⟩

/-- The whole tail has been dropped. -/
theorem getLast?_dropTail (p : Char → Bool) (cs : List Char) :
    ∀ c ∈ (dropTail p cs).getLast?, p c = false := by
  intro c hc
  rw [dropTail, List.getLast?_reverse] at hc
  have hhead := List.head?_dropWhile_not p cs.reverse
  rw [Option.mem_def.mp hc] at hhead
  exact hhead

/-- Nothing is dropped from a text that does not end with what is dropped. -/
theorem dropTail_eq_self {p : Char → Bool} {cs : List Char}
    (h : ∀ c ∈ cs.getLast?, p c = false) : dropTail p cs = cs :=
  List.rdropWhile_eq_self_iff.mpr fun hne => by simp [h _ (List.getLast?_eq_some_getLast hne)]

/-- Cutting a text behind its head and in front of its tail. -/
theorem exists_dropEnds (p : Char → Bool) (cs : List Char) :
    ∃ front back, cs = front ++ dropTail p (cs.dropWhile p) ++ back ∧
      (∀ c ∈ front, p c = true) ∧ ∀ c ∈ back, p c = true := by
  obtain ⟨back, hback, hb⟩ := exists_dropTail p (cs.dropWhile p)
  refine ⟨cs.takeWhile p, back, ?_, fun _ hc => List.mem_takeWhile_imp hc, hb⟩
  rw [List.append_assoc, ← hback, List.takeWhile_append_dropWhile]

/-- The whole head has been dropped. -/
theorem head?_dropEnds (p : Char → Bool) (cs : List Char) :
    ∀ c ∈ (dropTail p (cs.dropWhile p)).head?, p c = false := by
  intro c hc
  obtain ⟨back, hback, -⟩ := exists_dropTail p (cs.dropWhile p)
  have hc' : c ∈ (cs.dropWhile p).head? := by
    rw [hback, List.head?_append]
    exact Option.or_eq_some_iff.mpr (.inl hc)
  have hnot := List.head?_dropWhile_not p cs
  rw [Option.mem_def.mp hc'] at hnot
  exact hnot

/-- Cutting white space off the end. -/
theorem exists_trimEnd (cs : List Char) : ∃ back, cs = trimEnd cs ++ back ∧ Blanks back :=
  exists_dropTail isBlank cs

/-- Cutting a text into white space, the trimmed text, and white space. -/
theorem exists_trim (cs : List Char) :
    ∃ front back, cs = front ++ trim cs ++ back ∧ Blanks front ∧ Blanks back :=
  exists_dropEnds isBlank cs

/-- Trimming adds nothing. -/
theorem trim_subset (cs : List Char) : trim cs ⊆ cs := by
  obtain ⟨front, back, hcs, -, -⟩ := exists_trim cs
  intro c hc
  rw [hcs]
  simp [hc]

/-- What is left of a text is trimmed. -/
theorem trimmed_trim (cs : List Char) : Trimmed (trim cs) :=
  ⟨head?_dropEnds isBlank cs, getLast?_dropTail isBlank (trimStart cs)⟩

/-- A text that ends with something else than white space is cut off behind that. -/
theorem trimEnd_append {cs back : List Char} (hlast : ∀ c ∈ cs.getLast?, isBlank c = false)
    (hback : Blanks back) : trimEnd (cs ++ back) = cs := by
  have hback' : ∀ c ∈ back.reverse, isBlank c = true := by simpa [Blanks] using hback
  rw [trimEnd, dropTail, List.reverse_append, List.dropWhile_append_of_pos hback']
  exact dropTail_eq_self hlast

/-- A trimmed text is found between white space. -/
theorem trim_append {front cs back : List Char} (hfront : Blanks front) (h : Trimmed cs)
    (hne : cs ≠ []) (hback : Blanks back) : trim (front ++ cs ++ back) = cs := by
  obtain ⟨c, rest, rfl⟩ := List.exists_cons_of_ne_nil hne
  have hc : isBlank c = false := h.1 c rfl
  rw [trim, trimStart, List.append_assoc, List.dropWhile_append_of_pos hfront,
    List.cons_append, List.dropWhile_cons_of_neg (by simp [hc]), ← List.cons_append]
  exact trimEnd_append h.2 hback

/-- White space at the end does not matter to trimming. -/
theorem trim_append_blanks {cs back : List Char} (hback : Blanks back) :
    trim (cs ++ back) = trim cs := by
  have hreverse : ∀ c ∈ back.reverse, isBlank c = true := by simpa [Blanks] using hback
  have hnone : back.dropWhile isBlank = [] := List.dropWhile_eq_nil_iff.mpr hback
  rw [trim, trim, trimStart, trimStart, List.dropWhile_append]
  split
  · next h => rw [hnone, List.isEmpty_iff.mp h]
  · rw [trimEnd, trimEnd, dropTail, dropTail, List.reverse_append,
      List.dropWhile_append_of_pos hreverse]

/-- A trimmed text is what trimming leaves of it. -/
theorem trim_eq_self {cs : List Char} (h : Trimmed cs) (hne : cs ≠ []) : trim cs = cs := by
  simpa using trim_append blanks_nil h hne blanks_nil

/-- A text behind a character is trimmed if neither that one nor its last one is white space. -/
theorem trimmed_cons {c : Char} {cs : List Char} (hc : isBlank c = false)
    (hlast : ∀ d ∈ cs.getLast?, isBlank d = false) : Trimmed (c :: cs) := by
  refine ⟨fun d hd => ?_, fun d hd => ?_⟩
  · rw [← Option.some.inj hd]
    exact hc
  · cases cs with
    | nil =>
        rw [← Option.some.inj hd]
        exact hc
    | cons e cs => exact hlast d (by rwa [List.getLast?_cons_cons] at hd)

/-- A text is trimmed if its first and its last character are no white space. -/
theorem trimmed_of_ends {cs : List Char} {c d : Char} (hhead : cs.head? = some c)
    (hlast : cs.getLast? = some d) (hc : isBlank c = false) (hd : isBlank d = false) :
    Trimmed cs := by
  constructor
  · intro e he
    obtain rfl := Option.some.inj (hhead.symm.trans he)
    exact hc
  · intro e he
    obtain rfl := Option.some.inj (hlast.symm.trans he)
    exact hd

end AgentPipeline.Text
