import AgentPipeline.Number.Decimal

/-!
# Double precision numbers

A finite **double** is `± mantissa * 2 ^ exponent` with a mantissa below `2 ^ 53` and an
exponent of at least `-1074`; the mantissa is at least `2 ^ 52` unless the exponent is
the least one. Everything here is exact arithmetic on natural numbers: a decimal numeral
is read as the double nearest to its value, and a double is written with the fewest
digits that read back as the same double, the nearest such digits if there are several.

## Main definitions

* `Double`, `Double.ofDecimal`: doubles and the nearest one to a decimal value.
* `Double.shortest`: the fewest digits that read back.
* `Double.text`: the text of a double; positional up to 16 digits before the point and
  five places behind it, and with an exponent otherwise.
* `Double.positional`: the text of a double without exponent.
-/

namespace AgentPipeline

/-- A number of the double precision format. -/
inductive Double where
  | finite (negative : Bool) (mantissa : Nat) (exponent : Int)
  | infinity (negative : Bool)
  | nan
  deriving Repr, DecidableEq, Inhabited

namespace Double

/-- The least exponent. -/
def minExponent : Int := -1074

/-- The greatest exponent. -/
def maxExponent : Int := 971

/-- Numerator and denominator of `num / den * base ^ e`. -/
def scaleBy (base : Nat) (num den : Nat) (e : Int) : Nat × Nat :=
  if 0 ≤ e then (num * base.pow e.toNat, den) else (num, den * base.pow (-e).toNat)

/-- The quotient to the nearest natural number, a tie to the even one. -/
def divNearest (num den : Nat) : Nat :=
  let q := num / den
  let r := num % den
  if 2 * r > den ∨ (2 * r = den ∧ q % 2 = 1) then q + 1 else q

/-- The double nearest to the positive quotient of two natural numbers. -/
def ofRatio (negative : Bool) (num den : Nat) : Double :=
  let guess : Int := max minExponent ((num.log2 : Int) - den.log2 - 53)
  let floorAt (e : Int) : Nat := let (n, d) := scaleBy 2 num den (-e); n / d
  let e := if floorAt guess < Nat.pow 2 53 then guess else guess + 1
  let (n, d) := scaleBy 2 num den (-e)
  let m := divNearest n d
  let (m, e) := if m = Nat.pow 2 53 then (Nat.pow 2 52, e + 1) else (m, e)
  if maxExponent < e then .infinity negative
  else if m = 0 then .finite negative 0 minExponent
  else .finite negative m e

/-- The double nearest to a decimal value. -/
def ofDecimal (d : Decimal) : Double :=
  let magnitude : Int := (Nat.toDigits 10 d.digits).length + d.scale
  if d.digits = 0 ∨ magnitude < -330 then .finite d.negative 0 minExponent
  else if 310 < magnitude then .infinity d.negative
  else
    let (num, den) := scaleBy 10 d.digits 1 d.scale
    ofRatio d.negative num den

/-- The double a decimal numeral denotes. -/
def parse? (cs : List Char) : Option Double :=
  (Decimal.parse? cs).map ofDecimal

/-- Whether a double is finite. -/
def isFinite : Double → Bool
  | .finite .. => true
  | _ => false

/-! ### Shortest digits -/

/-- The greatest `k` from `guess` on with `10 ^ k ≤ num / den`, found within `fuel`
steps. -/
def log10From (num den : Nat) : Nat → Int → Int
  | 0, guess => guess
  | fuel + 1, guess =>
    let (n, d) := scaleBy 10 num den (-(guess + 1))
    if d ≤ n then log10From num den fuel (guess + 1) else guess

/-- The exponent of the leading decimal digit of a positive quotient. -/
def log10 (num den : Nat) : Int :=
  let binary : Int := (num.log2 : Int) - den.log2
  log10From num den 4 ((binary - 1) * 30103 / 100000 - 1)

/-- The digits, if any, among the two neighbours of `num / den` on the grid of the
multiples of `10 ^ grid` that lie between the bounds `low / den` and `high / den`; the
nearer one of two, an even one on a tie. -/
def onGrid (num low high den : Nat) (closed : Bool) (grid : Int) : Option Nat :=
  let (n, d) := scaleBy 10 num den (-grid)
  let below := n / d
  let inside (x : Nat) : Bool :=
    let (value, unit) := scaleBy 10 (x * den) 1 grid
    let (low, high) := (low * unit, high * unit)
    if closed then low ≤ value && value ≤ high else low < value && value < high
  match inside below, inside (below + 1) with
  | true, true => some (divNearest n d)
  | true, false => some below
  | false, true => some (below + 1)
  | false, false => none

/-- The first hit on the grids of one, two, … digits. -/
def shortestFrom (num low high den : Nat) (closed : Bool) (top : Int) :
    Nat → Nat → Nat × Int
  | 0, count =>
    let grid := top - count
    let (n, d) := scaleBy 10 num den (-grid)
    (divNearest n d, grid)
  | fuel + 1, count =>
    match onGrid num low high den closed (top - count) with
    | some digits => (digits, top - count)
    | none => shortestFrom num low high den closed top fuel (count + 1)

/-- Digits without trailing zeros, with the power of ten they stand for. -/
def dropZeros : Nat → Nat × Int → Nat × Int
  | 0, r => r
  | fuel + 1, (digits, grid) =>
    if digits ≠ 0 ∧ digits % 10 = 0 then dropZeros fuel (digits / 10, grid + 1)
    else (digits, grid)

/-- The fewest digits `d`, with a power of ten `p`, such that `d * 10 ^ p` reads back as
`mantissa * 2 ^ exponent`. -/
def shortest (mantissa : Nat) (exponent : Int) : Nat × Int :=
  let quarter : Int := exponent - 2
  let atLeast : Nat := if mantissa = Nat.pow 2 52 ∧ minExponent < exponent then 1 else 2
  let (unit, den) := scaleBy 2 1 1 quarter
  let num := 4 * mantissa * unit
  let low := (4 * mantissa - atLeast) * unit
  let high := (4 * mantissa + 2) * unit
  dropZeros 18 (shortestFrom num low high den (mantissa % 2 == 0) (log10 num den) 17 0)

/-! ### Texts -/

/-- The text of digits with a power of ten. -/
def format (digits : Nat) (grid : Int) : List Char :=
  let ds := Nat.toDigits 10 digits
  let point : Int := ds.length + grid
  if 0 ≤ grid ∧ point ≤ 16 then ds ++ List.replicate grid.toNat '0' ++ ['.', '0']
  else if 0 < point ∧ point ≤ 16 then
    ds.take point.toNat ++ '.' :: ds.drop point.toNat
  else if -5 < point ∧ point ≤ 0 then
    ['0', '.'] ++ List.replicate (-point).toNat '0' ++ ds
  else
    let tail := if ds.length = 1 then [] else '.' :: ds.drop 1
    ds.take 1 ++ tail ++ 'e' :: (toString (point - 1)).toList

/-- The sign in front of a number. -/
def signText (negative : Bool) : List Char :=
  if negative then ['-'] else []

/-- The text of a double. -/
def text : Double → String
  | .nan => ".nan"
  | .infinity negative => if negative then "-.inf" else ".inf"
  | .finite negative mantissa exponent =>
    let body :=
      if mantissa = 0 then ['0', '.', '0']
      else let (digits, grid) := shortest mantissa exponent; format digits grid
    String.ofList (signText negative ++ body)

/-- Digits with a power of ten, without exponent and with at least one place behind the
point. -/
def formatPositional (digits : Nat) (grid : Int) : List Char :=
  let ds := Nat.toDigits 10 digits
  let point : Int := ds.length + grid
  if 0 ≤ grid then ds ++ List.replicate grid.toNat '0' ++ ['.', '0']
  else if 0 < point then ds.take point.toNat ++ '.' :: ds.drop point.toNat
  else ['0', '.'] ++ List.replicate (-point).toNat '0' ++ ds

/-- The text of a double without exponent. -/
def positional : Double → String
  | .nan => "NaN"
  | .infinity negative => if negative then "-inf" else "inf"
  | .finite negative mantissa exponent =>
    let body :=
      if mantissa = 0 then ['0', '.', '0']
      else let (digits, grid) := shortest mantissa exponent; formatPositional digits grid
    String.ofList (signText negative ++ body)

/-! ### Equality of values -/

/-- Equality of values: the two zeros are equal. -/
def same : Double → Double → Bool
  | .finite n m e, .finite n' m' e' => m == m' && ((m == 0) || (n == n' && e == e'))
  | .infinity n, .infinity n' => n == n'
  | .nan, .nan => true
  | _, _ => false

end Double

end AgentPipeline
