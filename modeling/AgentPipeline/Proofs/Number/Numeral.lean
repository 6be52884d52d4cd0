import AgentPipeline.Number.Decimal
import Mathlib.Algebra.Group.Nat.Defs

/-!
# Numerals

A **numeral** is a text of decimal digits, with at least one of them. It denotes a number (`value`),
which is less than the power of ten with as many zeros as the numeral has digits (`value_lt`). Each
number has a numeral of each length from that of its own digits on, with zeros in front (`padded`).
-/

namespace AgentPipeline

variable {c : Char} {ds : List Char}

/-- A decimal digit is less than ten. -/
theorem digitValue_lt_ten (h : c.isDigit = true) : digitValue c < 10 := by
  have hrange : 48 ≤ c.toNat ∧ c.toNat ≤ 57 := by
    simpa [Char.isDigit, UInt32.le_iff_toNat_le] using h
  rw [digitValue, if_pos h]
  change c.toNat - 48 < 10
  omega

/-- Reading digits behind others. -/
theorem foldl_digits (h : ∀ c ∈ ds, c.isDigit = true) (front : Nat) :
    ds.foldl (fun n c => n * 10 + digitValue c) front = Nat.ofDigitChars 10 ds front := by
  induction ds generalizing front with
  | nil => rfl
  | cons c ds ih =>
      rw [List.forall_mem_cons] at h
      rw [List.foldl_cons, ih h.2, Nat.ofDigitChars_cons, digitValue, if_pos h.1, Nat.mul_comm]

/-- Digits behind a number leave it below its successor with as many zeros. -/
theorem ofDigitChars_lt (h : ∀ c ∈ ds, c.isDigit = true) (front : Nat) :
    Nat.ofDigitChars 10 ds front < (front + 1) * 10 ^ ds.length := by
  induction ds generalizing front with
  | nil => simp
  | cons c ds ih =>
      rw [List.forall_mem_cons] at h
      have hvalue := digitValue_lt_ten h.1
      rw [digitValue, if_pos h.1] at hvalue
      calc Nat.ofDigitChars 10 (c :: ds) front
          < (10 * front + (c.toNat - '0'.toNat) + 1) * 10 ^ ds.length := ih h.2 _
        _ ≤ ((front + 1) * 10) * 10 ^ ds.length := Nat.mul_le_mul_right _ (by omega)
        _ = (front + 1) * 10 ^ (c :: ds).length := by
            rw [List.length_cons, Nat.pow_succ', Nat.mul_assoc]

/-- Decimal numerals. -/
structure Numeral where
  digits : List Char
  ne_nil : digits ≠ []
  isDigit : ∀ c ∈ digits, c.isDigit = true

namespace Numeral

/-- The number that a numeral denotes. -/
def value (n : Numeral) : Nat := Nat.ofDigitChars 10 n.digits 0

/-- A numeral is read as its value. -/
theorem digitsToNat_digits (n : Numeral) : digitsToNat 10 n.digits = some n.value := by
  have hforeign : n.digits.any (fun c => 10 ≤ digitValue c) = false := by
    simp only [List.any_eq_false, decide_eq_true_eq, Nat.not_le]
    exact fun c hc => digitValue_lt_ten (n.isDigit c hc)
  rw [digitsToNat, if_neg (by simp [n.ne_nil, hforeign]), foldl_digits n.isDigit, value]

/-- The value is less than the power of ten with as many zeros as there are digits. -/
theorem value_lt (n : Numeral) : n.value < 10 ^ n.digits.length := by
  simpa [value] using ofDigitChars_lt n.isDigit 0

/-- The digits of a number behind zeros, up to a width. -/
def padded (width k : Nat) : Numeral where
  digits := List.replicate (width - (Nat.toDigits 10 k).length) '0' ++ Nat.toDigits 10 k
  ne_nil := by simp [Nat.toDigits_ne_nil]
  isDigit := by
    refine List.forall_mem_append.mpr ⟨fun c hc => ?_, fun c hc =>
      Nat.isDigit_of_mem_toDigits (by decide) (by decide) hc⟩
    rw [List.eq_of_mem_replicate hc]
    decide

/-- Zeros in front do not change the value. -/
@[simp] theorem value_padded (width k : Nat) : (padded width k).value = k := by
  rw [value, padded, Nat.ofDigitChars_append, Nat.ofDigitChars_replicate_zero, Nat.mul_zero,
    Nat.ofDigitChars_ten_toDigits]

/-- A padded numeral has the width asked for, or more. -/
theorem le_length_padded (width k : Nat) : width ≤ (padded width k).digits.length := by
  simp only [padded, List.length_append, List.length_replicate]
  omega

/-- It has just this width if the number has no more digits. -/
theorem length_padded {width k : Nat} (hwidth : 0 < width) (h : k < 10 ^ width) :
    (padded width k).digits.length = width := by
  have hlength := (Nat.length_toDigits_le_iff (b := 10) (by decide) hwidth).mpr h
  simp only [padded, List.length_append, List.length_replicate]
  omega

end Numeral

end AgentPipeline
