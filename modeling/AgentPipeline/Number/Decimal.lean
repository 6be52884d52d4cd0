/-!
# Decimal numerals

A **decimal numeral** is a sign, digits with at most one point among them, and an
optional power of ten. It denotes the exact value `± digits * 10 ^ scale`.

## Main definitions

* `Decimal`, `Decimal.parse?`: numerals and how they are spelled.
* `digitsToNat`: the value of a list of digits in a base.
-/

namespace AgentPipeline

/-- The value of a character as a digit of a base up to 36, in either case. -/
def digitValue (c : Char) : Nat :=
  if c.isDigit then c.toNat - '0'.toNat
  else if c.isLower then c.toNat - 'a'.toNat + 10
  else if c.isUpper then c.toNat - 'A'.toNat + 10
  else 36

/-- The number that a list of digits denotes in a base; none for no digits or a foreign
character. -/
def digitsToNat (base : Nat) (ds : List Char) : Option Nat :=
  if ds.isEmpty ∨ ds.any (fun c => base ≤ digitValue c) then none
  else some (ds.foldl (fun n c => n * base + digitValue c) 0)

/-- The text of a number tells which number it is. -/
theorem toString_inj {m n : Nat} (h : toString m = toString n) : m = n := by
  rw [Nat.toString_eq_ofList_toDigits, Nat.toString_eq_ofList_toDigits, String.ofList_inj] at h
  have hread := congrArg (Nat.ofDigitChars 10 · 0) h
  rwa [Nat.ofDigitChars_toDigits (by decide) (by decide),
    Nat.ofDigitChars_toDigits (by decide) (by decide)] at hread

/-- The exact value `± digits * 10 ^ scale`. -/
structure Decimal where
  negative : Bool
  digits : Nat
  scale : Int
  deriving Repr, DecidableEq, Inhabited

namespace Decimal

/-- Split a leading sign from a numeral. -/
def splitSign : List Char → Bool × List Char
  | '-' :: cs => (true, cs)
  | '+' :: cs => (false, cs)
  | cs => (false, cs)

/-- The exponent part of a numeral: nothing, or a letter, a sign and digits. -/
def parseExponent : List Char → Option Int
  | [] => some 0
  | c :: cs =>
    if c = 'e' ∨ c = 'E' then
      let (negative, ds) := splitSign cs
      (digitsToNat 10 ds).map fun n => if negative then -(n : Int) else n
    else none

/-- Read a numeral: digits on at least one side of an optional point. -/
def parse? (cs : List Char) : Option Decimal :=
  let (negative, cs) := splitSign cs
  let whole := cs.takeWhile Char.isDigit
  let rest := cs.dropWhile Char.isDigit
  let (fraction, rest) :=
    match rest with
    | '.' :: rest => (rest.takeWhile Char.isDigit, rest.dropWhile Char.isDigit)
    | rest => ([], rest)
  do
    let digits ← digitsToNat 10 (whole ++ fraction)
    let exponent ← parseExponent rest
    pure ⟨negative, digits, exponent - fraction.length⟩

end Decimal

end AgentPipeline
