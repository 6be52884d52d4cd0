import AgentPipeline.Yaml.Value

/-!
# Plain scalars

A scalar without quotes denotes null, a boolean, a number or a string, depending on its
spelling. Integers may be written in decimal, or in hexadecimal, octal or binary behind
`0x`, `0o` or `0b`; a run of decimal digits with a leading zero is a string.

## Main definitions

* `Plain`, `Plain.ofText`: what a plain scalar denotes.
* `Plain.toValue?`: the value of a plain scalar; an integer beyond 64 bits has none.
-/

namespace AgentPipeline.Yaml

/-- What a plain scalar denotes. -/
inductive Plain where
  | null
  | bool (b : Bool)
  | int (n : Int)
  /-- an integer that fits into 128 bits but not into 64 -/
  | wideInt
  | float (x : Double)
  | text
  deriving Repr, DecidableEq, Inhabited

namespace Plain

/-- The spellings of null, the empty one apart. -/
def isNullWord (s : String) : Bool :=
  s == "null" || s == "Null" || s == "NULL" || s == "~"

/-- The booleans and their spellings. -/
def bool? (s : String) : Option Bool :=
  if s = "true" ∨ s = "True" ∨ s = "TRUE" then some true
  else if s = "false" ∨ s = "False" ∨ s = "FALSE" then some false
  else none

/-- A run of digits that starts with a zero, possibly behind a sign. -/
def isZeroPadded (cs : List Char) : Bool :=
  match (Decimal.splitSign cs).2 with
  | '0' :: d :: ds => (d :: ds).all Char.isDigit
  | _ => false

/-- The number that the digits behind a sign denote, with their base mark if any. -/
def magnitude? (cs : List Char) : Option Nat :=
  let marked :=
    match cs with
    | '0' :: 'x' :: ds => digitsToNat 16 ds
    | '0' :: 'o' :: ds => digitsToNat 8 ds
    | '0' :: 'b' :: ds => digitsToNat 2 ds
    | _ => none
  if marked.isSome then marked else digitsToNat 10 cs

/-- The natural number that a scalar denotes, with an optional plus sign. -/
def nat? (cs : List Char) : Option Nat :=
  let digits := match cs with | '+' :: ds => ds | ds => ds
  match digits with
  | '+' :: _ => none
  | '-' :: _ => none
  | _ => if isZeroPadded cs then none else magnitude? digits

/-- The magnitude of the integer that a scalar with a minus sign denotes. -/
def negated? : List Char → Option Nat
  | '-' :: ds => if isZeroPadded ds then none else magnitude? ds
  | _ => none

/-- The integer that a scalar denotes, within 128 bits. -/
def int? (cs : List Char) : Option Plain :=
  match nat? cs with
  | some n =>
    if n < Nat.pow 2 64 then some (.int n) else if n < Nat.pow 2 128 then some .wideInt else none
  | none =>
    match negated? cs with
    | some n =>
      if n ≤ Nat.pow 2 63 then some (.int (-(n : Int)))
      else if n ≤ Nat.pow 2 127 then some .wideInt
      else none
    | none => none

/-- The double that a scalar denotes: a finite numeral or one of the words for the
infinities and for no number. -/
def double? (s : String) : Option Double :=
  if s = ".inf" ∨ s = ".Inf" ∨ s = ".INF" ∨ s = "+.inf" ∨ s = "+.Inf" ∨ s = "+.INF" then
    some (.infinity false)
  else if s = "-.inf" ∨ s = "-.Inf" ∨ s = "-.INF" then some (.infinity true)
  else if s = ".nan" ∨ s = ".NaN" ∨ s = ".NAN" then some .nan
  else (Double.parse? s.toList).filter Double.isFinite

/-- The double that a scalar denotes unless it is a run of digits with a leading zero. -/
def float? (s : String) : Option Double :=
  if isZeroPadded s.toList then none else double? s

/-- What a plain scalar denotes. -/
def ofText (s : String) : Plain :=
  if s = "" ∨ isNullWord s then .null
  else
    match bool? s with
    | some b => .bool b
    | none =>
      match int? s.toList with
      | some p => p
      | none =>
        match float? s with
        | some x => .float x
        | none => .text

/-- The value of a plain scalar with this text. -/
def toValue? (s : String) : Option Value :=
  match ofText s with
  | .null => some .null
  | .bool b => some (.bool b)
  | .int n => some (.number (.int n))
  | .wideInt => none
  | .float x => some (.number (.float x))
  | .text => some (.string s)

end Plain

end AgentPipeline.Yaml
