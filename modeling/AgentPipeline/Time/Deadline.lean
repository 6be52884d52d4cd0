import AgentPipeline.Time.Calendar
import AgentPipeline.Text.Blank
import AgentPipeline.Number.Decimal
import AgentPipeline.Error

/-!
# Deadlines

A deadline is an offset from now, such as `+7d` or `+1d12h`; a date with a time and an
offset from Coordinated Universal Time, as the internet writes them; a date with a time;
or a date, which means its first second. Whatever its form, it is resolved to a moment.

## Main definitions

* `Deadline.offset?`: the seconds of an offset.
* `Deadline.internetTime?`, `Deadline.dateTime?`, `Deadline.date?`: moments from their
  texts.
* `Deadline.resolve`: the text of the moment that a deadline means.
-/

namespace AgentPipeline.Deadline

/-! ### Offsets -/

/-- The most seconds that an offset may have, by components and in sum. -/
def offsetLimit : Nat := 9223372036854775

/-- The number of seconds of the unit with a letter. -/
def unitSeconds? (c : Char) : Option Nat :=
  if c = 'd' then some 86400 else if c = 'h' then some 3600 else none

/-- The sum with one more component, within the limit. -/
def addComponent? (total amount seconds : Nat) : Option Nat :=
  if amount < Nat.pow 2 63 ∧ amount * seconds ≤ offsetLimit ∧
      total + amount * seconds ≤ offsetLimit then
    some (total + amount * seconds)
  else none

/-- The sum of the components of an offset; `amount` is the number read so far, if there
are digits in front, and `total` the sum so far, if there are components in front. -/
def sumFrom (total amount : Option Nat) : List Char → Option Nat
  | [] => if amount.isNone then total else none
  | c :: cs =>
    if c.isDigit then sumFrom total (some (amount.getD 0 * 10 + digitValue c)) cs
    else do
      let sum ← addComponent? (total.getD 0) (← amount) (← unitSeconds? c)
      sumFrom (some sum) none cs

/-- The seconds of an offset: numbers of days and hours. -/
def offset? (cs : List Char) : Option Nat :=
  sumFrom none none cs

/-- The moment some seconds after another one, in the years covered. -/
def after? (now : Int) (seconds : Nat) : Option Moment :=
  let m := Moment.ofSeconds (now + seconds)
  let year := m.date.year
  if Date.firstYear ≤ year ∧ year ≤ Date.lastYear then some m else none

/-! ### Dates and times -/

/-- A number of `least` to `most` digits at the start of a text, and what follows. -/
def number? (least most : Nat) (cs : List Char) : Option (Nat × List Char) :=
  let digits := (cs.take most).takeWhile Char.isDigit
  if digits.length < least then none
  else (digitsToNat 10 digits).map (·, cs.drop digits.length)

/-- What follows a character at the start of a text. -/
def behind? (c : Char) : List Char → Option (List Char)
  | d :: cs => if d = c then some cs else none
  | [] => none

/-- The moment of a date and a time, if there is one. -/
def moment? (d : Date) (hour minute second : Nat) : Option Moment :=
  if d.isValid ∧ hour < 24 ∧ minute < 60 ∧ second ≤ 60 then
    some ⟨d.toDays, hour, minute, second⟩
  else none

/-- The sign of an offset from Coordinated Universal Time. -/
def offsetSign? (c : Char) : Option Int :=
  if c = '+' then some 1 else if c = '-' ∨ c = '−' then some (-1) else none

/-- The minutes of an offset from Coordinated Universal Time, less than a day. -/
def zone? : List Char → Option Int
  | ['Z'] => some 0
  | ['z'] => some 0
  | c :: cs => do
    let sign ← offsetSign? c
    let (hours, cs) ← number? 2 2 cs
    let (minutes, cs) ← number? 2 2 (← behind? ':' cs)
    if cs = [] ∧ hours < 24 ∧ minutes < 60 then pure (sign * (hours * 60 + minutes))
    else none
  | [] => none

/-- What follows the fraction of a second, if there is one. -/
def dropFraction? : List Char → Option (List Char)
  | '.' :: cs =>
    if cs.head?.any Char.isDigit then some (cs.dropWhile Char.isDigit) else none
  | cs => some cs

/-- What follows the character between a date and a time. -/
def dropSeparator? : List Char → Option (List Char)
  | c :: cs => if c = 'T' ∨ c = 't' ∨ c = ' ' then some cs else none
  | [] => none

/-- The moment of a date, a time and an offset, as the internet writes them. -/
def internetTime? (cs : List Char) : Option Moment := do
  let (year, cs) ← number? 4 4 cs
  let (month, cs) ← number? 2 2 (← behind? '-' cs)
  let (day, cs) ← number? 2 2 (← behind? '-' cs)
  let (hour, cs) ← number? 2 2 (← dropSeparator? cs)
  let (minute, cs) ← number? 2 2 (← behind? ':' cs)
  let (second, cs) ← number? 2 2 (← behind? ':' cs)
  let zone ← zone? (← dropFraction? cs)
  let m ← moment? ⟨year, month, day⟩ hour minute second
  pure (m.shiftMinutes (-zone))

/-- A number of one or two digits, behind white space. -/
def field? (cs : List Char) : Option (Nat × List Char) :=
  number? 1 2 (Text.trimStart cs)

/-- A year, behind white space: four digits at most, or a minus sign and any digits. -/
def year? (cs : List Char) : Option (Int × List Char) :=
  match Text.trimStart cs with
  | '-' :: cs => (number? 1 cs.length cs).map fun (n, rest) => (-(n : Int), rest)
  | cs => (number? 1 4 cs).map fun (n, rest) => ((n : Int), rest)

/-- The date at the start of a text, and what follows. -/
def datePart? (cs : List Char) : Option (Date × List Char) := do
  let (year, cs) ← year? cs
  let (month, cs) ← field? (← behind? '-' cs)
  let (day, cs) ← field? (← behind? '-' cs)
  pure (⟨year, month, day⟩, cs)

/-- The moment of a date and a time. -/
def dateTime? (cs : List Char) : Option Moment := do
  let (d, cs) ← datePart? cs
  let (hour, cs) ← field? cs
  let (minute, cs) ← field? (← behind? ':' cs)
  let (second, cs) ← field? (← behind? ':' cs)
  if cs = [] then moment? d hour minute second else none

/-- The first second of a date. -/
def date? (cs : List Char) : Option Moment := do
  let (d, cs) ← datePart? cs
  if cs = [] then moment? d 0 0 0 else none

/-! ### Deadlines -/

/-- The moment that a deadline without white space around it means, seen from `now`. -/
def moment (now : Int) : List Char → Option Moment
  | '+' :: cs => (offset? cs).bind (after? now)
  | cs => ((internetTime? cs).or (dateTime? cs)).or (date? cs)

/-- The text of the moment that a deadline means, seen from `now`, which counts the
seconds since the start of 1970. -/
def resolve (value : String) (now : Int) : Except ConfigError String :=
  match moment now (Text.trim value.toList) with
  | some m => .ok m.text
  | none => .error (.invalidStopTime value)

end AgentPipeline.Deadline
