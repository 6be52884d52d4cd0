import AgentPipeline.Proofs.Yaml.Word
import AgentPipeline.Yaml.Printer

/-!
# Styles

The style of a string says what its text consists of (`styled`). Where a text is written plain it
stands on one line and holds nothing that would end it early (`allowsPlain_cons`); the texts of
numbers are of this kind (`allowsPlain_text`).
-/

namespace AgentPipeline.Yaml

variable {c d e : Char} {cs ds : List Char}

/-! ### Strings -/

/-- **The styles of strings.** -/
inductive Styled (s : String) : Style → Prop
  | plain (hline : '\n' ∉ s.toList) (htext : Plain.ofText s = .text)
      (hallows : allowsPlain s.toList = true) : Styled s .plain
  | single (hline : '\n' ∉ s.toList) (hallows : allowsSingle s.toList = true) : Styled s .single
  | double : Styled s .double
  | literal (hlines : '\n' ∈ s.toList) (hallows : allowsLiteral s.toList = true) :
      Styled s .literal

/-- The text of a string is as its style says. -/
theorem styled (s : String) : Styled s (styleOf s) := by
  rw [styleOf, List.contains_eq_mem]
  split
  · next hlines =>
    split
    · next hallows => exact .literal (by simpa using hlines) hallows
    · exact .double
  · next hline =>
    split
    · next hplain => exact .plain (by simpa using hline) hplain.1 hplain.2.2
    split
    · next hallows => exact .single (by simpa using hline) hallows
    · exact .double

/-- A literal string has several lines of printable characters. -/
theorem of_styleOf_eq_literal {s : String} (h : styleOf s = .literal) :
    '\n' ∈ s.toList ∧ ∀ c ∈ s.toList, isPrintable c = true := by
  have hstyled := styled s
  rw [h] at hstyled
  cases hstyled with
  | literal hlines hallows =>
      simp only [allowsLiteral, Bool.and_eq_true] at hallows
      exact ⟨hlines, List.all_eq_true.mp hallows.1.1⟩

/-- What may be written plain: one printable line without a space at either end that starts no block
and holds nothing that would end it early. -/
theorem allowsPlain_cons : allowsPlain (c :: cs) = true ↔
    c ≠ ' ' ∧ (c :: cs).getLast? ≠ some ' ' ∧
      (∀ d ∈ c :: cs, isPrintable d = true ∧ isBreak d = false) ∧ startsBlock (c :: cs) = false ∧
        endsEarly c cs = false := by
  simp [allowsPlain, and_assoc]

/-- A text that can be written plain stands on one line. -/
theorem isBreak_of_allowsPlain (h : allowsPlain cs = true) : ∀ c ∈ cs, isBreak c = false := by
  cases cs with
  | nil => nofun
  | cons c cs => exact fun d hd => ((allowsPlain_cons.mp h).2.2.1 d hd).2

/-! ### Numbers -/

/-- The characters behind the first digit of a number. -/
def isNumeralChar (c : Char) : Bool :=
  Scanner.isNameChar c || c == '.'

/-- Digits occur in numbers. -/
theorem isNumeralChar_of_isDigit (h : c.isDigit = true) : isNumeralChar c = true := by
  simp [isNumeralChar, Scanner.isNameChar, Char.isAlphanum, h]

/-- A character of a number is none that does not occur in numbers. -/
theorem ne_of_isNumeralChar (h : isNumeralChar c = true) (hd : isNumeralChar d = false) :
    c ≠ d := by
  rintro rfl
  exact Bool.false_ne_true (hd.symm.trans h)

/-- The characters of numbers are printable and break no line. -/
theorem onLine_of_isNumeralChar (h : isNumeralChar c = true) :
    isPrintable c = true ∧ isBreak c = false := by
  rcases Bool.or_eq_true_iff.mp h with h | h
  · have hblank := isBlankOrBreak_of_isNameChar h
    simp only [isBlankOrBreak, Bool.or_eq_false_iff] at hblank
    exact ⟨isPrintable_of_isNameChar h, hblank.2⟩
  · rw [beq_iff_eq.mp h]
    decide

/-- A text without colons and without `#` does not end early. -/
theorem endsEarly_eq_false (h : ∀ c ∈ cs, c ≠ ':' ∧ c ≠ '#') (previous : Char) :
    endsEarly previous cs = false := by
  induction cs generalizing previous with
  | nil => rfl
  | cons c cs ih =>
      rw [List.forall_mem_cons] at h
      simp [endsEarly, h.1, ih h.2 c]

/-- A number does not end early. -/
theorem endsEarly_of_isNumeralChar (h : ∀ c ∈ cs, isNumeralChar c = true) (previous : Char) :
    endsEarly previous cs = false :=
  endsEarly_eq_false (fun c hc => ⟨ne_of_isNumeralChar (h c hc) (by decide),
    ne_of_isNumeralChar (h c hc) (by decide)⟩) previous

/-- A number does not end in a space. -/
theorem getLast?_of_isNumeralChar (h : ∀ c ∈ cs, isNumeralChar c = true) :
    cs.getLast? ≠ some ' ' := fun hlast =>
  ne_of_isNumeralChar (h ' ' (List.mem_of_getLast? hlast)) (by decide) rfl

/-- A digit is none of the characters that are no digits. -/
theorem ne_of_isDigit (hd : d.isDigit = true) (he : e.isDigit = false) : d ≠ e := by
  rintro rfl
  exact Bool.false_ne_true (he.symm.trans hd)

/-- A digit is no indicator. -/
theorem isIndicator_of_isDigit (hd : d.isDigit = true) : isIndicator d = false := by
  have hdigits : "#,[]\x7b\x7d&*!|>'\"%@\x60".toList.all (!Char.isDigit ·) = true := by decide
  rw [Bool.eq_false_iff, Ne, isIndicator, List.contains_iff_mem]
  intro hmem
  simpa [hd] using List.all_eq_true.mp hdigits d hmem

/-- A digit ends no word. -/
theorem endsWord_of_isDigit (hd : d.isDigit = true) : endsWord (some d) = false := by
  have hname : Scanner.isNameChar d = true := by
    simp [Scanner.isNameChar, Char.isAlphanum, hd]
  have hzero := (toNat_of_isNameChar hname).1
  simp [endsWord, isBlankOrBreak_of_isNameChar hname]
  omega

/-- A text that starts with a digit starts no block. -/
theorem startsBlock_digit (hd : d.isDigit = true) : startsBlock (d :: ds) = false := by
  have hdash := ne_of_isDigit hd (e := '-') (by decide)
  unfold startsBlock
  split
  · next heq => exact absurd (List.cons.inj heq).1 hdash
  · next heq => exact absurd (List.cons.inj heq).1 (ne_of_isDigit hd (by decide))
  · next heq =>
    obtain ⟨rfl, rfl⟩ := List.cons.inj heq
    simp [isIndicator_of_isDigit hd, hdash, ne_of_isDigit hd (e := '?') (by decide),
      ne_of_isDigit hd (e := ':') (by decide)]
  · rfl

/-- A dash with a digit behind it starts no item. -/
theorem startsBlock_minus (hd : d.isDigit = true) : startsBlock ('-' :: d :: ds) = false := by
  unfold startsBlock
  split
  · next heq =>
    exact absurd (List.cons.inj (List.cons.inj heq).2).1 (ne_of_isDigit hd (by decide))
  · next heq => exact absurd (List.cons.inj heq).1 (by decide)
  · next heq =>
    obtain ⟨rfl, rfl⟩ := List.cons.inj heq
    rw [List.head?_cons, endsWord_of_isDigit hd]
    decide
  · rfl

/-- **A digit with such characters behind it**, possibly behind a minus sign, can be written
plain. -/
theorem allowsPlain_numeral (sign : Bool) (hd : d.isDigit = true)
    (hds : ∀ c ∈ ds, isNumeralChar c = true) :
    allowsPlain ((if sign then ['-'] else []) ++ d :: ds) = true := by
  have hall : ∀ c ∈ d :: ds, isNumeralChar c = true :=
    List.forall_mem_cons.mpr ⟨isNumeralChar_of_isDigit hd, hds⟩
  have hline : ∀ c ∈ d :: ds, isPrintable c = true ∧ isBreak c = false := fun c hc =>
    onLine_of_isNumeralChar (hall c hc)
  have hlast := getLast?_of_isNumeralChar hall
  cases sign with
  | false =>
      exact allowsPlain_cons.mpr ⟨ne_of_isDigit hd (by decide), hlast, hline,
        startsBlock_digit hd, endsEarly_of_isNumeralChar hds d⟩
  | true =>
      refine allowsPlain_cons.mpr
        ⟨by decide, ?_, ?_, startsBlock_minus hd, endsEarly_of_isNumeralChar hall '-'⟩
      · exact (List.getLast?_cons_cons (a := '-') (b := d) (l := ds)).symm ▸ hlast
      · exact List.forall_mem_cons.mpr ⟨by decide, hline⟩

/-- An integer is written as its digits, behind a sign if it is negative. -/
theorem toList_toString_int (n : Int) : ∃ sign : Bool,
    (toString n).toList = (if sign then ['-'] else []) ++ Nat.toDigits 10 n.natAbs := by
  cases n with
  | ofNat n =>
      have htext : toString (Int.ofNat n) = toString n := rfl
      refine ⟨false, ?_⟩
      rw [htext, Nat.toString_eq_ofList_toDigits, String.toList_ofList]
      rfl
  | negSucc n =>
      have htext : toString (Int.negSucc n) = "-" ++ toString (n + 1) := rfl
      refine ⟨true, ?_⟩
      simp only [htext, Nat.toString_eq_ofList_toDigits, String.toList_append,
        String.toList_ofList]
      rfl

/-- A number is written from a digit on, if at all behind a sign. -/
def StartsWithDigit (cs : List Char) : Prop :=
  ∃ d ds, cs = d :: ds ∧ d.isDigit = true ∧ ∀ c ∈ ds, isNumeralChar c = true

/-- A number stays one if more of its characters follow. -/
theorem startsWithDigit_append {xs ys : List Char} (hxs : StartsWithDigit xs)
    (hys : ∀ c ∈ ys, isNumeralChar c = true) : StartsWithDigit (xs ++ ys) := by
  obtain ⟨d, ds, rfl, hd, hds⟩ := hxs
  exact ⟨d, ds ++ ys, rfl, hd, List.forall_mem_append.mpr ⟨hds, hys⟩⟩

/-- The beginning of the text of a number is one as well. -/
theorem startsWithDigit_take {k : Nat} (hk : 0 < k) (hcs : StartsWithDigit cs) :
    StartsWithDigit (cs.take k) := by
  obtain ⟨d, ds, rfl, hd, hds⟩ := hcs
  obtain ⟨k, rfl⟩ := Nat.exists_eq_succ_of_ne_zero (Nat.pos_iff_ne_zero.mp hk)
  exact ⟨d, ds.take k, rfl, hd, fun c hc => hds c (List.mem_of_mem_take hc)⟩

/-- The decimal digits of a number start with a digit. -/
theorem startsWithDigit_toDigits (n : Nat) : StartsWithDigit (Nat.toDigits 10 n) := by
  obtain ⟨d, ds, h⟩ := List.exists_cons_of_ne_nil (Nat.toDigits_ne_nil (n := n) (b := 10))
  have hall : ∀ c ∈ d :: ds, c.isDigit = true := fun c hc =>
    Nat.isDigit_of_mem_toDigits (by decide) (by decide) (h ▸ hc)
  rw [List.forall_mem_cons] at hall
  exact ⟨d, ds, h, hall.1, fun c hc => isNumeralChar_of_isDigit (hall.2 c hc)⟩

/-- The decimal digits of a number are characters of numbers. -/
theorem isNumeralChar_toDigits (n : Nat) : ∀ c ∈ Nat.toDigits 10 n, isNumeralChar c = true :=
  fun _ hc => isNumeralChar_of_isDigit (Nat.isDigit_of_mem_toDigits (by decide) (by decide) hc)

/-- So are zeros. -/
theorem isNumeralChar_zeros (n : Nat) : ∀ c ∈ List.replicate n '0', isNumeralChar c = true := by
  intro c hc
  rw [List.eq_of_mem_replicate hc]
  decide

/-- A decimal fraction starts with a digit. -/
theorem startsWithDigit_format (digits : Nat) (grid : Int) :
    StartsWithDigit (Double.format digits grid) := by
  have hdigits := startsWithDigit_toDigits digits
  have hall := isNumeralChar_toDigits digits
  have hpoint : isNumeralChar '.' = true := by decide
  unfold Double.format
  extract_lets ds point
  -- by where the point stands: behind the digits, among them, in front of them, or with an exponent
  split
  · exact startsWithDigit_append (startsWithDigit_append hdigits (isNumeralChar_zeros _))
      (List.all_eq_true.mp (by decide))
  split
  · next h =>
    refine startsWithDigit_append (startsWithDigit_take (by omega) hdigits) ?_
    exact List.forall_mem_cons.mpr ⟨hpoint, fun c hc => hall c (List.mem_of_mem_drop hc)⟩
  split
  · refine startsWithDigit_append (startsWithDigit_append ?_ (isNumeralChar_zeros _)) hall
    exact ⟨'0', ['.'], rfl, by decide, by simpa using hpoint⟩
  · have htail : ∀ c ∈ if ds.length = 1 then [] else '.' :: ds.drop 1, isNumeralChar c = true := by
      split
      · nofun
      · exact List.forall_mem_cons.mpr ⟨hpoint, fun c hc => hall c (List.mem_of_mem_drop hc)⟩
    refine startsWithDigit_append (startsWithDigit_append
      (startsWithDigit_take Nat.one_pos hdigits) htail) (List.forall_mem_cons.mpr ⟨by decide, ?_⟩)
    obtain ⟨sign, htext⟩ := toList_toString_int (point - 1)
    rw [htext, List.forall_mem_append]
    refine ⟨?_, isNumeralChar_toDigits _⟩
    cases sign
    · nofun
    · exact List.all_eq_true.mp (by decide)

/-- **The text of a number can be written plain.** -/
theorem allowsPlain_text (n : Number) : n.text ≠ "" ∧ allowsPlain n.text.toList = true := by
  have hnumeral (sign : Bool) {cs : List Char} (hcs : StartsWithDigit cs) {s : String}
      (hs : s.toList = (if sign then ['-'] else []) ++ cs) :
      s ≠ "" ∧ allowsPlain s.toList = true := by
    obtain ⟨d, ds, rfl, hd, hds⟩ := hcs
    rw [hs]
    refine ⟨?_, allowsPlain_numeral sign hd hds⟩
    rintro rfl
    cases sign <;> cases hs
  cases n with
  | int n =>
      obtain ⟨sign, htext⟩ := toList_toString_int n
      exact hnumeral sign (startsWithDigit_toDigits _) htext
  | float x =>
      cases x with
      | nan => decide
      | infinity negative => cases negative <;> decide
      | finite negative mantissa exponent =>
          have hdigits : StartsWithDigit (if mantissa = 0 then ['0', '.', '0'] else
              Double.format (Double.shortest mantissa exponent).1
                (Double.shortest mantissa exponent).2) := by
            split
            · exact ⟨'0', ['.', '0'], rfl, by decide, List.all_eq_true.mp (by decide)⟩
            · exact startsWithDigit_format _ _
          exact hnumeral negative hdigits String.toList_ofList

end AgentPipeline.Yaml
