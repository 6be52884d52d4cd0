import AgentPipeline.Yaml.Entry
import AgentPipeline.Yaml.Plain

/-!
# Texts that are written without quotes

A text is written without quotes if none of the tests of `needsQuotes` finds fault with it
(`Unquoted`). Some of these tests are about how the text is spelled: they reject whatever a plain
scalar may denote besides a string, and more. So a text without quotes denotes itself
(`Unquoted.toValue?_eq`). The numbers need an argument: they are spelled in several bases, and each
of the spellings is a digit, possibly behind a sign, with digits and letters behind it.
-/

namespace AgentPipeline.Yaml

/-- **A text that is written without quotes.** -/
structure Unquoted (v : String) : Prop where
  ne_nil : v.toList ≠ []
  trim_eq : Text.trim v.toList = v.toList
  notReserved : isReservedWord v = false
  notDecimal : Decimal.parse? v.toList = none
  notNumeric : looksNumeric v.toList = false
  head : ∀ c ∈ v.toList.head?, opensSpecial c = false
  noColon : hasNeighbours ':' ' ' v.toList = false
  noHash : hasNeighbours ' ' '#' v.toList = false
  last : v.toList.getLast? ≠ some ':'
  noBreak : '\n' ∉ v.toList

variable {v : String} {c : Char} {cs ds : List Char}

/-- A text in which no test finds fault is unquoted. -/
theorem unquoted_of_needsQuotes (h : needsQuotes v = false) : Unquoted v := by
  simp only [needsQuotes, Bool.or_eq_false_iff, bne_eq_false_iff_eq, List.isEmpty_eq_false_iff,
    Option.isSome_eq_false_iff, Option.isNone_iff_eq_none, beq_eq_false_iff_ne,
    List.contains_eq_mem, decide_eq_false_iff_not] at h
  obtain ⟨⟨⟨⟨⟨⟨⟨⟨⟨⟨hnil, htrim⟩, hreserved⟩, hdecimal⟩, -⟩, hnumeric⟩, hhead⟩, hcolon⟩, hhash⟩,
    hlast⟩, hbreak⟩ := h
  refine ⟨hnil, htrim, hreserved, hdecimal, hnumeric, ?_, hcolon, hhash, hlast, hbreak⟩
  simpa [Option.any_eq_false] using hhead

/-! ### Numbers -/

/-- A digit, and characters of a number behind it. -/
def IsNumeral (cs : List Char) : Prop :=
  ∃ d ds, cs = d :: ds ∧ d.isDigit = true ∧ ∀ c ∈ ds, isNumberChar c = true

/-- A numeral looks like a number, whatever its sign. -/
theorem looksNumeric_of_isNumeral (h : IsNumeral (Decimal.splitSign cs).2) :
    looksNumeric cs = true := by
  obtain ⟨d, ds, heq, hd, hds⟩ := h
  have hpoint : d ≠ '.' := by rintro rfl; exact absurd hd (by decide)
  simpa [looksNumeric, heq, hd, hpoint] using hds

/-- The digits of any base are characters of numbers. -/
theorem isNumberChar_of_digitValue (h : digitValue c < 36) : isNumberChar c = true := by
  have halphanum : c.isAlphanum = true := by
    change (c.isUpper || c.isLower || c.isDigit) = true
    unfold digitValue at h
    split at h
    · next hdigit => rw [hdigit, Bool.or_true]
    split at h
    · next hlower => rw [hlower, Bool.or_true, Bool.true_or]
    split at h
    · next hupper => rw [hupper, Bool.true_or, Bool.true_or]
    · exact absurd h (Nat.lt_irrefl 36)
  simp [isNumberChar, halphanum]

/-- The digits up to nine are decimal. -/
theorem isDigit_of_digitValue (h : digitValue c < 10) : c.isDigit = true := by
  unfold digitValue at h
  split at h
  · assumption
  split at h
  · omega
  split at h <;> omega

section Digits

variable {base n : Nat} {mark : Char}

/-- What denotes a number in a base consists of digits of the base. -/
theorem forall_digitValue_of_digitsToNat (h : digitsToNat base ds = some n) :
    ds ≠ [] ∧ ∀ c ∈ ds, digitValue c < base := by
  rw [digitsToNat] at h
  split at h
  · cases h
  · next hnot => simpa [not_or] using hnot

/-- Whatever has a decimal value is a numeral. -/
theorem isNumeral_of_digitsToNat (h : digitsToNat 10 cs = some n) : IsNumeral cs := by
  obtain ⟨hne, hall⟩ := forall_digitValue_of_digitsToNat h
  obtain ⟨d, ds, rfl⟩ := List.exists_cons_of_ne_nil hne
  rw [List.forall_mem_cons] at hall
  refine ⟨d, ds, rfl, isDigit_of_digitValue hall.1, fun c hc => ?_⟩
  exact isNumberChar_of_digitValue (Nat.lt_of_lt_of_le (hall.2 c hc) (by decide))

/-- Digits of a base behind its mark. -/
theorem isNumeral_of_marked (hmark : isNumberChar mark = true) (hbase : base ≤ 36)
    (h : (if (digitsToNat base ds).isSome then digitsToNat base ds
      else digitsToNat 10 ('0' :: mark :: ds)) = some n) : IsNumeral ('0' :: mark :: ds) := by
  split at h
  · refine ⟨'0', mark :: ds, rfl, by decide, List.forall_mem_cons.mpr ⟨hmark, fun c hc => ?_⟩⟩
    have hvalue := (forall_digitValue_of_digitsToNat h).2 c hc
    exact isNumberChar_of_digitValue (Nat.lt_of_lt_of_le hvalue hbase)
  · exact isNumeral_of_digitsToNat h

end Digits

namespace Plain

variable {n : Nat}

/-- A number is spelled with a digit in front, in whatever base. -/
theorem isNumeral_of_magnitude? (h : magnitude? cs = some n) : IsNumeral cs := by
  dsimp only [magnitude?] at h
  split at h
  · exact isNumeral_of_marked (by decide) (by decide) h
  · exact isNumeral_of_marked (by decide) (by decide) h
  · exact isNumeral_of_marked (by decide) (by decide) h
  · exact isNumeral_of_digitsToNat h

/-- A positive number is read from its magnitude. -/
theorem magnitude?_of_nat? (h : nat? cs = some n) :
    magnitude? (Decimal.splitSign cs).2 = some n := by
  unfold Decimal.splitSign
  split
  · cases h
  · simp only [nat?] at h
    grind
  · simp only [nat?] at h
    grind

/-- A negative number is read from its magnitude. -/
theorem magnitude?_of_negated? (h : negated? cs = some n) :
    magnitude? (Decimal.splitSign cs).2 = some n := by
  unfold negated? at h
  split at h
  · split at h
    · cases h
    · exact h
  · cases h

/-- An integer looks like a number. -/
theorem int?_eq_none (h : looksNumeric cs = false) : int? cs = none := by
  have hnumeral (n : Nat) : magnitude? (Decimal.splitSign cs).2 ≠ some n := fun hn =>
    Bool.false_ne_true (h.symm.trans (looksNumeric_of_isNumeral (isNumeral_of_magnitude? hn)))
  have hnat : nat? cs = none :=
    Option.eq_none_iff_forall_ne_some.mpr fun n hn => hnumeral n (magnitude?_of_nat? hn)
  have hnegated : negated? cs = none :=
    Option.eq_none_iff_forall_ne_some.mpr fun n hn => hnumeral n (magnitude?_of_negated? hn)
  rw [int?, hnat, hnegated]

/-- The words for the floats that are no numerals look like numbers. -/
theorem double?_eq_none (h : Unquoted v) : double? v = none := by
  have hne (w : String) (hw : looksNumeric w.toList = true) : v ≠ w := by
    rintro rfl
    exact Bool.false_ne_true (h.notNumeric.symm.trans hw)
  have hinfinity : ¬(v = ".inf" ∨ v = ".Inf" ∨ v = ".INF" ∨ v = "+.inf" ∨ v = "+.Inf" ∨
      v = "+.INF") := by
    rintro (h | h | h | h | h | h) <;> exact hne _ (by decide) h
  have hnegative : ¬(v = "-.inf" ∨ v = "-.Inf" ∨ v = "-.INF") := by
    rintro (h | h | h) <;> exact hne _ (by decide) h
  have hnan : ¬(v = ".nan" ∨ v = ".NaN" ∨ v = ".NAN") := by
    rintro (h | h | h) <;> exact hne _ (by decide) h
  rw [double?, if_neg hinfinity, if_neg hnegative, if_neg hnan, Double.parse?, h.notDecimal]
  rfl

end Plain

/-- The spellings of null and of the booleans are reserved. -/
theorem isReservedWord_of_mem {w : String} (hw : w ∈ ["null", "Null", "NULL", "~", "true", "True",
    "TRUE", "false", "False", "FALSE"]) : isReservedWord w = true := by
  revert w
  decide +kernel

/-- **A text that is written without quotes denotes itself.** -/
theorem Unquoted.toValue?_eq (h : Unquoted v) : Plain.toValue? v = some (.string v) := by
  have hreserved : v ∉ ["null", "Null", "NULL", "~", "true", "True", "TRUE", "false", "False",
      "FALSE"] := fun hv =>
    Bool.false_ne_true (h.notReserved.symm.trans (isReservedWord_of_mem hv))
  simp only [List.mem_cons, List.not_mem_nil, or_false, not_or] at hreserved
  have hempty : v ≠ "" := by
    rintro rfl
    exact h.ne_nil rfl
  have hnull : ¬(v = "" ∨ Plain.isNullWord v = true) := by
    simp [Plain.isNullWord, hempty, hreserved]
  have hbool : Plain.bool? v = none := by simp [Plain.bool?, hreserved]
  have hfloat : Plain.float? v = none := by
    rw [Plain.float?, Plain.double?_eq_none h, ite_self]
  rw [Plain.toValue?, Plain.ofText, if_neg hnull, hbool, Plain.int?_eq_none h.notNumeric, hfloat]

end AgentPipeline.Yaml
