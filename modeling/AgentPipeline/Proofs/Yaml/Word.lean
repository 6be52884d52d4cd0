import AgentPipeline.Yaml.Plain
import AgentPipeline.Yaml.Token

/-!
# Words

A **word** is a letter with letters, digits, dashes and underscores behind it. The names of
scopes and levels are words, and so are most keys that are written. Nothing in a word opens,
closes or separates anything, so the reader of plain scalars goes through it
(`readPlain_word`); and unless it is a word for null or for a boolean, a word denotes itself
(`toValue?_word`).
-/

namespace AgentPipeline.Yaml

/-- A letter, and letters, digits, dashes and underscores behind it. -/
def isWord : List Char → Bool
  | [] => false
  | c :: cs => c.isAlpha && cs.all Scanner.isNameChar

variable {c : Char} {cs w : List Char}

/-! ### Characters -/

/-- A character of a word differs from every other character. -/
theorem ne_of_isNameChar {d : Char} (hc : Scanner.isNameChar c = true)
    (hd : Scanner.isNameChar d = false) : c ≠ d := by
  rintro rfl
  exact Bool.false_ne_true (hd.symm.trans hc)

/-- A character of a word is none of some others. -/
theorem ne_of_mem {ds : List Char} (hc : Scanner.isNameChar c = true)
    (hds : ds.all (!Scanner.isNameChar ·) = true) : ∀ d ∈ ds, c ≠ d := fun d hd =>
  ne_of_isNameChar hc (by simpa using List.all_eq_true.mp hds d hd)

/-- Letters may stand in words. -/
theorem isNameChar_of_isAlpha (h : c.isAlpha = true) : Scanner.isNameChar c = true := by
  simp [Scanner.isNameChar, Char.isAlphanum, h]

/-- The characters of a word are letters, digits, dashes and underscores. -/
theorem isNameChar_of_isWord (h : isWord w = true) (hc : c ∈ w) :
    Scanner.isNameChar c = true := by
  cases w with
  | nil => cases h
  | cons d ds =>
      rw [isWord, Bool.and_eq_true, List.all_eq_true] at h
      rcases List.mem_cons.mp hc with rfl | hc
      · exact isNameChar_of_isAlpha h.1
      · exact h.2 c hc

/-- Letters by their codes. -/
theorem isAlpha_iff :
    c.isAlpha = true ↔ (65 ≤ c.val ∧ c.val ≤ 90) ∨ (97 ≤ c.val ∧ c.val ≤ 122) := by
  change (decide (65 ≤ c.val ∧ c.val ≤ 90) ||
    (decide (97 ≤ c.val) && decide (c.val ≤ 122))) = true ↔ _
  simp only [Bool.or_eq_true, Bool.and_eq_true, decide_eq_true_eq]

/-- The characters of names are visible ASCII characters. -/
theorem toNat_of_isNameChar (h : Scanner.isNameChar c = true) :
    0x20 < c.toNat ∧ c.toNat < 0x7F := by
  simp only [Scanner.isNameChar, Char.isAlphanum, Char.isDigit, Bool.or_eq_true, isAlpha_iff,
    Bool.and_eq_true, decide_eq_true_eq, beq_iff_eq] at h
  rcases h with (((⟨h, h'⟩ | ⟨h, h'⟩) | ⟨h, h'⟩) | rfl) | rfl
  · exact ⟨Nat.lt_of_lt_of_le (by decide) h, Nat.lt_of_le_of_lt h' (by decide)⟩
  · exact ⟨Nat.lt_of_lt_of_le (by decide) h, Nat.lt_of_le_of_lt h' (by decide)⟩
  · exact ⟨Nat.lt_of_lt_of_le (by decide) h, Nat.lt_of_le_of_lt h' (by decide)⟩
  · decide
  · decide

/-- The characters of words may stand in a document. -/
theorem isPrintable_of_isNameChar (h : Scanner.isNameChar c = true) : isPrintable c = true := by
  obtain ⟨hlow, hhigh⟩ := toNat_of_isNameChar h
  simp only [isPrintable, Bool.or_eq_true, Bool.and_eq_true, decide_eq_true_eq]
  exact .inl (.inl (.inl (.inr ⟨Nat.le_of_lt hlow, Nat.le_of_lt_succ hhigh⟩)))

/-- The characters of words take one byte. -/
theorem utf8Size_of_isNameChar (h : Scanner.isNameChar c = true) : c.utf8Size = 1 := by
  have hhigh : c.val.toNat < 0x7F := (toNat_of_isNameChar h).2
  rw [Char.utf8Size_eq_one_iff, UInt32.le_iff_toNat_le]
  exact Nat.le_of_lt hhigh

/-- The white space of a document. -/
def whiteSpace : List Char := [' ', '\t', '\n', '\r', '\u0085', '\u2028', '\u2029']

/-- The characters between words, as a list. -/
theorem isBlankOrBreak_iff_mem : isBlankOrBreak c = true ↔ c ∈ whiteSpace := by
  simp only [isBlankOrBreak, isBreak, Bool.or_eq_true, beq_iff_eq, whiteSpace, List.mem_cons,
    List.not_mem_nil, or_false, ← Char.toNat_inj, or_assoc]
  rfl

/-- There is no white space in words. -/
theorem isBlankOrBreak_of_isNameChar (h : Scanner.isNameChar c = true) :
    isBlankOrBreak c = false := by
  rw [Bool.eq_false_iff, Ne, isBlankOrBreak_iff_mem]
  intro hmem
  exact ne_of_mem h (by decide) c hmem rfl

/-! ### Plain scalars -/

/-- Passing a text in two parts. -/
theorem Position.skip_append (p : Position) (cs ds : List Char) :
    p.skip (cs ++ ds) = (p.skip cs).skip ds := List.foldl_append

/-- Passing characters that end no line leaves the line. -/
theorem Position.line_skip (p : Position) (cs : List Char) : (p.skip cs).line = p.line := by
  induction cs generalizing p with
  | nil => rfl
  | cons c cs ih => exact ih (p.next c)

/-- Each character that is passed is one more column. -/
theorem Position.column_skip (p : Position) (cs : List Char) :
    (p.skip cs).column = p.column + cs.length := by
  induction cs generalizing p with
  | nil => rfl
  | cons c cs ih =>
      change ((p.next c).skip cs).column = _
      rw [ih, Position.next]
      exact Nat.succ_add_eq_add_succ p.column cs.length

/-- In a name each character takes one byte. -/
theorem Position.index_skip (p : Position) (hcs : ∀ c ∈ cs, Scanner.isNameChar c = true) :
    (p.skip cs).index = p.index + cs.length := by
  induction cs generalizing p with
  | nil => rfl
  | cons c cs ih =>
      obtain ⟨hc, hcs⟩ := List.forall_mem_cons.mp hcs
      change ((p.next c).skip cs).index = _
      rw [ih _ hcs, Position.next, utf8Size_of_isNameChar hc]
      exact Nat.succ_add_eq_add_succ p.index cs.length

/-- Passing characters never leads back. -/
theorem Position.column_le_skip (p : Position) (cs : List Char) :
    p.column ≤ (p.skip cs).column := by
  rw [Position.column_skip]
  exact Nat.le_add_right _ _

/-- The place behind a line break and the indentation of the next line. -/
def Position.indented (p : Position) (n : Nat) : Position :=
  (p.nextLine '\n').skip (List.replicate n ' ')

/-- Behind an indentation the column is its length. -/
theorem Position.column_indented (p : Position) (n : Nat) : (p.indented n).column = n := by
  rw [Position.indented, Position.column_skip, List.length_replicate]
  exact Nat.zero_add n

/-- Behind an indentation no column is to the left of it. -/
theorem Position.le_column_indented (p : Position) (n : Nat) (cs : List Char) :
    n ≤ ((p.indented n).skip cs).column :=
  Nat.le_trans (Nat.le_of_eq (p.column_indented n).symm) (Position.column_le_skip _ cs)

section Reading

variable {least : Nat} {text : List Char} {p : Position}

/-- A plain scalar ends in front of a hash behind white space, and of a colon that ends a word. -/
theorem readPlain_ends {gap : Gap} (hgap : gap.isBroken = false) (hbreak : isBreak c = false)
    (hblank : isSpaceOrTab c = false)
    (h : (c = '#' ∧ (!gap.isEmpty) = true) ∨ endsPlain false c cs.head? = true) :
    readPlain false least gap text p (c :: cs) =
      some ⟨String.ofList text.reverse, false, p, c :: cs⟩ := by
  rw [readPlain, if_neg (by simp [hbreak]), if_neg (by simp [hblank]), hgap]
  split
  · rfl
  · next hgoes =>
    have hends : endsPlain false c cs.head? = true :=
      h.resolve_left fun hhash => hgoes (.inr (.inr hhash))
    rw [if_neg (by simp), if_pos hends]

/-- Any other character is taken over, where no mark between documents stands. -/
theorem readPlain_kept {gap : Gap} (hgap : gap.isBroken = false) (hbreak : isBreak c = false)
    (hblank : isSpaceOrTab c = false)
    (hmark : ¬(p.column = 0 ∧ isDocumentMark (c :: cs) = true))
    (h : ¬((c = '#' ∧ (!gap.isEmpty) = true) ∨ endsPlain false c cs.head? = true)) :
    readPlain false least gap text p (c :: cs) =
      readPlain false least .none (c :: (gap.text ++ text)) (p.next c) cs := by
  obtain ⟨hhash, hends⟩ := not_or.mp h
  have hgoes : ¬((gap.isBroken = true ∧ (!false) = true ∧ p.column < least) ∨
      (p.column = 0 ∧ isDocumentMark (c :: cs) = true) ∨
        (c = '#' ∧ (!gap.isEmpty) = true)) := by
    rintro (⟨hbroken, -⟩ | hp | hc)
    · exact Bool.false_ne_true (hgap.symm.trans hbroken)
    · exact hmark hp
    · exact hhash hc
  rw [readPlain, if_neg (by simp [hbreak]), if_neg (by simp [hblank]), if_neg hgoes,
    if_neg (by simp), if_neg hends]

/-- The reader of plain scalars takes a character of a name over, but looks at the first one of
a line once more. -/
theorem readPlain_cons (hc : Scanner.isNameChar c = true)
    (hmark : p.column = 0 → isDocumentMark (c :: cs) = false) :
    readPlain false least .none text p (c :: cs) =
      readPlain false least .none (c :: text) (p.next c) cs := by
  have hblank : (isSpaceOrTab c || isBreak c) = false := isBlankOrBreak_of_isNameChar hc
  rw [Bool.or_eq_false_iff] at hblank
  have hcolon : c ≠ ':' := ne_of_isNameChar hc (by decide)
  have hmark : ¬(p.column = 0 ∧ isDocumentMark (c :: cs) = true) := fun hp =>
    Bool.false_ne_true ((hmark hp.1).symm.trans hp.2)
  refine readPlain_kept rfl hblank.2 hblank.1 hmark ?_
  simp [Gap.isEmpty, endsPlain, hcolon]

/-- The characters of words are taken for a plain scalar one by one, whatever follows. -/
theorem readPlain_append (hcs : ∀ c ∈ cs, Scanner.isNameChar c = true)
    (hcolumn : p.column ≠ 0) (rest : List Char) :
    readPlain false least .none text p (cs ++ rest) =
      readPlain false least .none (cs.reverse ++ text) (p.skip cs) rest := by
  induction cs generalizing text p with
  | nil => rfl
  | cons c cs ih =>
      rw [List.forall_mem_cons] at hcs
      rw [List.cons_append, readPlain_cons hcs.1 fun h => absurd h hcolumn,
        ih hcs.2 (Nat.succ_ne_zero _), List.reverse_cons, List.append_assoc]
      rfl

/-- A mark between documents starts with a dash or a point. -/
theorem isDocumentMark_of_isAlpha (h : c.isAlpha = true) : isDocumentMark (c :: cs) = false := by
  have hne : c ≠ '-' ∧ c ≠ '.' := by
    constructor <;> (rintro rfl; exact absurd h (by decide))
  unfold isDocumentMark
  split <;> simp_all

/-- The reader of plain scalars goes through words. -/
theorem readPlain_word (hw : isWord w = true) (rest : List Char) :
    readPlain false least .none text p (w ++ rest) =
      readPlain false least .none (w.reverse ++ text) (p.skip w) rest := by
  cases w with
  | nil => cases hw
  | cons c cs =>
      rw [isWord, Bool.and_eq_true, List.all_eq_true] at hw
      rw [List.cons_append, readPlain_cons (isNameChar_of_isAlpha hw.1) fun _ =>
        isDocumentMark_of_isAlpha hw.1, readPlain_append hw.2 (Nat.succ_ne_zero _),
        List.reverse_cons, List.append_assoc]
      rfl

/-- A plain scalar ends in front of a colon that ends a word. -/
theorem readPlain_colon {rest : List Char} (h : endsWord rest.head? = true) :
    readPlain false least .none text p (':' :: rest) =
      some ⟨String.ofList text.reverse, false, p, ':' :: rest⟩ := by
  have hends : endsPlain false ':' rest.head? = true := by simp [endsPlain, h]
  exact readPlain_ends rfl (by decide) (by decide) (.inr hends)

/-- Behind a line break the reader of plain scalars passes over the indentation. -/
theorem readPlain_indent {flow : Bool} {first : Option Char} {more : List Char} (n : Nat)
    (rest : List Char) :
    readPlain flow least (.breaks first more) text p (List.replicate n ' ' ++ rest) =
      readPlain flow least (.breaks first more) text (p.skip (List.replicate n ' ')) rest := by
  induction n generalizing p with
  | zero => rfl
  | succ n ih =>
      rw [List.replicate_succ, List.cons_append, readPlain, if_neg (by decide),
        if_pos (by decide), if_neg (by simp)]
      exact ih

/-- A plain scalar ends with its line if the word on the next line is not indented far enough. -/
theorem readPlain_break {n : Nat} (hn : n < least) (hw : isWord w = true) (rest : List Char) :
    readPlain false least .none text p ('\n' :: (List.replicate n ' ' ++ (w ++ rest))) =
      some ⟨String.ofList text.reverse, true, p.indented n, w ++ rest⟩ := by
  cases w with
  | nil => cases hw
  | cons c cs =>
      have hblank : (isSpaceOrTab c || isBreak c) = false :=
        isBlankOrBreak_of_isNameChar (isNameChar_of_isWord hw List.mem_cons_self)
      rw [Bool.or_eq_false_iff] at hblank
      have hcolumn : (p.indented n).column < least := by rwa [Position.column_indented]
      rw [readPlain, if_pos (by decide)]
      change readPlain false least (.breaks (some '\n') []) text (p.nextLine '\n') _ = _
      rw [readPlain_indent, List.cons_append, readPlain, if_neg (by simp [hblank.2]),
        if_neg (by simp [hblank.1]), if_pos (.inl ⟨rfl, rfl, hcolumn⟩)]
      rfl

end Reading

/-! ### Values -/

/-- A letter is no digit. -/
theorem isDigit_of_isAlpha (h : c.isAlpha = true) : c.isDigit = false := by
  rw [isAlpha_iff] at h
  simp only [Char.isDigit, Bool.and_eq_false_iff, decide_eq_false_iff_not, ge_iff_le]
  grind

/-- A letter has a value of ten or more, so it is no decimal digit. -/
theorem ten_le_digitValue (h : c.isAlpha = true) : 10 ≤ digitValue c := by
  rw [digitValue, isDigit_of_isAlpha h]
  split
  · contradiction
  · split
    · omega
    · split <;> omega

/-- A text that starts with a letter has no sign. -/
theorem splitSign_of_isAlpha (h : c.isAlpha = true) :
    Decimal.splitSign (c :: cs) = (false, c :: cs) := by
  unfold Decimal.splitSign
  split
  · next heq => cases heq; exact absurd h (by decide)
  · next heq => cases heq; exact absurd h (by decide)
  · rfl

/-- A text that starts with a letter is no decimal number. -/
theorem digitsToNat_of_isAlpha (h : c.isAlpha = true) : digitsToNat 10 (c :: cs) = none := by
  have hany : (c :: cs).any (fun d => decide (10 ≤ digitValue d)) = true := by
    simp [ten_le_digitValue h]
  rw [digitsToNat, if_pos (.inr hany)]

/-- A text with a letter in front is no decimal numeral. -/
theorem parse?_of_isAlpha (h : c.isAlpha = true) : Double.parse? (c :: cs) = none := by
  have hdigit : ¬c.isDigit = true := by rw [isDigit_of_isAlpha h]; exact Bool.false_ne_true
  simp only [Double.parse?, Decimal.parse?, splitSign_of_isAlpha h,
    List.takeWhile_cons_of_neg hdigit, List.dropWhile_cons_of_neg hdigit]
  split
  · next heq => cases heq; exact absurd h (by decide)
  · rfl

namespace Plain

/-- A text that starts with a letter is no number with zeros in front. -/
theorem isZeroPadded_of_isAlpha (h : c.isAlpha = true) : isZeroPadded (c :: cs) = false := by
  rw [isZeroPadded, splitSign_of_isAlpha h]
  split
  · next heq => cases heq; exact absurd h (by decide)
  · rfl

/-- A text that starts with a letter is no number in any base. -/
theorem magnitude?_of_isAlpha (h : c.isAlpha = true) : magnitude? (c :: cs) = none := by
  have hzero : c ≠ '0' := by rintro rfl; exact absurd h (by decide)
  simp [magnitude?, digitsToNat_of_isAlpha h, hzero]

/-- A text with a letter in front is no integer. -/
theorem int?_of_isAlpha (h : c.isAlpha = true) : int? (c :: cs) = none := by
  have hsign : c ≠ '+' ∧ c ≠ '-' := by
    constructor <;> (rintro rfl; exact absurd h (by decide))
  have hnat : nat? (c :: cs) = none := by
    simp [nat?, isZeroPadded_of_isAlpha h, magnitude?_of_isAlpha h, hsign]
  have hnegated : negated? (c :: cs) = none := by simp [negated?, hsign]
  rw [int?, hnat, hnegated]

/-- A text with a letter in front is no number at all. -/
theorem double?_of_isAlpha {s : String} (hs : s.toList = c :: cs) (h : c.isAlpha = true) :
    double? s = none := by
  have hne : ∀ t : String, t.toList.head?.any Char.isAlpha = false → s ≠ t := by
    rintro t ht rfl
    rw [hs, List.head?_cons, Option.any_some, h] at ht
    cases ht
  have hinfinity : ¬(s = ".inf" ∨ s = ".Inf" ∨ s = ".INF" ∨ s = "+.inf" ∨ s = "+.Inf" ∨
      s = "+.INF") := by
    rintro (h | h | h | h | h | h) <;> exact hne _ (by decide) h
  have hnegative : ¬(s = "-.inf" ∨ s = "-.Inf" ∨ s = "-.INF") := by
    rintro (h | h | h) <;> exact hne _ (by decide) h
  have hnan : ¬(s = ".nan" ∨ s = ".NaN" ∨ s = ".NAN") := by
    rintro (h | h | h) <;> exact hne _ (by decide) h
  rw [double?, if_neg hinfinity, if_neg hnegative, if_neg hnan, hs, parse?_of_isAlpha h]
  rfl

/-- A word denotes itself, unless it is one of the words for null and for the booleans. -/
theorem toValue?_word {s : String} (hw : isWord s.toList = true) (hnull : isNullWord s = false)
    (hbool : bool? s = none) : toValue? s = some (.string s) := by
  have htext : ofText s = .text := by
    cases hs : s.toList with
    | nil => rw [hs] at hw; cases hw
    | cons c cs =>
        rw [hs, isWord, Bool.and_eq_true] at hw
        have hempty : ¬(s = "" ∨ isNullWord s = true) := by
          rintro (rfl | h)
          · cases hs
          · exact Bool.false_ne_true (hnull.symm.trans h)
        have hfloat : float? s = none := by
          rw [float?, double?_of_isAlpha hs hw.1, ite_self]
        rw [ofText, if_neg hempty, hbool, hs, int?_of_isAlpha hw.1, hfloat]
  rw [toValue?, htext]

end Plain

end AgentPipeline.Yaml
