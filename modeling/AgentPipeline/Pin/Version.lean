/-!
# Versions

A version is **numeric** if it consists of one to three numbers between points, behind any
number of letters `v`; missing numbers are zero. Numeric versions compare number by
number, and any other pair of versions by its text.

## Main definitions

* `Version.parse?`: the numbers of a version.
* `Version.compare`, `Version.sameMajor`: the order of versions, and agreement in the
  first number.
-/

namespace AgentPipeline.Version

/-- The numbers of a numeric version. -/
structure Numbers where
  major : Nat
  minor : Nat
  patch : Nat
  deriving Repr, DecidableEq, Inhabited

/-- One number of a version: digits, possibly behind a plus sign, within 64 bits. -/
def component? (cs : List Char) : Option Nat :=
  let digits := match cs with | '+' :: ds => ds | ds => ds
  if digits.isEmpty ∨ !digits.all Char.isDigit then none
  else
    let n := digits.foldl (fun n c => n * 10 + (c.toNat - '0'.toNat)) 0
    if n < Nat.pow 2 64 then some n else none

/-- The stretches of a text between its points. -/
def splitPoints : List Char → List (List Char)
  | [] => [[]]
  | c :: cs =>
    if c = '.' then [] :: splitPoints cs
    else
      match splitPoints cs with
      | [] => [[c]]
      | p :: ps => (c :: p) :: ps

/-- The numbers of a version, if it is numeric. -/
def parse? (version : String) : Option Numbers :=
  match splitPoints (version.toList.dropWhile (· == 'v')) with
  | [a] => do pure ⟨← component? a, 0, 0⟩
  | [a, b] => do pure ⟨← component? a, ← component? b, 0⟩
  | [a, b, c] => do pure ⟨← component? a, ← component? b, ← component? c⟩
  | _ => none

/-- The order of numeric versions. -/
def Numbers.compare (a b : Numbers) : Ordering :=
  (Ord.compare a.major b.major).then
    ((Ord.compare a.minor b.minor).then (Ord.compare a.patch b.patch))

/-- The order of versions: by number if both are numeric, else by text. -/
def compare (a b : String) : Ordering :=
  match parse? a, parse? b with
  | some a, some b => a.compare b
  | _, _ => Ord.compare a b

/-- Whether both versions are numeric and agree in the first number. -/
def sameMajor (a b : String) : Bool :=
  match parse? a, parse? b with
  | some a, some b => a.major == b.major
  | _, _ => false

end AgentPipeline.Version
