import AgentPipeline.Yaml.Printer
import AgentPipeline.Condition.Wrap

/-!
# Entries of the generated document

The generated pipeline is laid out by hand, entry by entry, at fixed columns. This module
holds the entries: plain and quoted scalars, literal blocks for texts of several lines,
folded blocks for conditions, and values of the user that are written as they are.

A scalar is quoted with care for readers of older YAML as well: besides what reads as null,
boolean or number today, words such as `on` and `yes`, and whatever looks like a number
with separators, stays a string only between quotes.

## Main definitions

* `scalar`: a text on one line.
* `entry`, `literalBlock`: an entry with a text on one or on several lines.
* `ifEntry`: the entry of a condition.
* `valueEntry`, `listItem`: an entry and an item with a value of the user.
-/

namespace AgentPipeline.Yaml

open AgentPipeline

/-! ### Scalars -/

/-- ASCII letters in lower case. -/
def lowerAscii (s : String) : String :=
  s.map Char.toLower

/-- Words for the floats that are not numerals, in any case and behind an optional sign. -/
def isFloatWord (cs : List Char) : Bool :=
  let word := ((Decimal.splitSign cs).2).map Char.toLower
  word == "inf".toList || word == "infinity".toList || word == "nan".toList

/-- The characters that older readers admit in a number. -/
def isNumberChar (c : Char) : Bool :=
  c.isAlphanum || c == '_' || c == '.' || c == ':' || c == '+' || c == '-'

/-- Texts that some reader takes for a number: behind an optional sign, a digit or a point
and a digit followed by characters of a number, or a point and a word for the floats that
are not numerals. -/
def looksNumeric (cs : List Char) : Bool :=
  match (Decimal.splitSign cs).2 with
  | '.' :: d :: ds =>
    (d.isDigit && ds.all isNumberChar) ||
      ["inf", "Inf", "INF", "nan", "NaN", "NAN"].contains (String.ofList (d :: ds))
  | d :: ds => d.isDigit && ds.all isNumberChar
  | [] => false

/-- Words that some reader takes for null or a boolean. -/
def isReservedWord (s : String) : Bool :=
  s == "~" || s == "y" || s == "Y" || s == "n" || s == "N" ||
    ["true", "false", "yes", "no", "on", "off", "null"].contains (lowerAscii s)

/-- Characters at which a text has to be quoted if it starts with them. -/
def opensSpecial (c : Char) : Bool :=
  "!&*-?\x7b\x7d[]|>'\"%@\x60#,:".toList.contains c

/-- Two neighbouring characters in a text. -/
def hasNeighbours (a b : Char) (cs : List Char) : Bool :=
  hasPair (· == a) (· == b) cs

/-- Whether a text has to be quoted to read back as the same string. -/
def needsQuotes (s : String) : Bool :=
  let cs := s.toList
  cs.isEmpty || Text.trim cs != cs || isReservedWord s ||
    (Decimal.parse? cs).isSome || isFloatWord cs || looksNumeric cs ||
    cs.head?.any opensSpecial || hasNeighbours ':' ' ' cs || hasNeighbours ' ' '#' cs ||
    cs.getLast? == some ':' || cs.contains '\n'

/-- A text as a scalar on one line. -/
def scalar (s : String) : String :=
  if needsQuotes s then
    "'" ++ String.ofList (doubleSingleQuotes s.toList) ++ "'"
  else s

/-! ### Entries -/

/-- Spaces up to a column. -/
def pad (indent : Nat) : String :=
  String.ofList (spaces indent)

/-- The lines of a block, each behind a line break and indented unless it is empty. -/
def blockLines (indent : Nat) (lines : List String) : String :=
  String.join (lines.map fun line => if line = "" then "\n" else "\n" ++ pad indent ++ line)

/-- An entry with a text of several lines as a literal block. A text on one line is a
scalar. -/
def literalBlock (indent : Nat) (key text : String) : String :=
  let cs := text.toList
  if cs.contains '\n' then
    let hint := if cs.head? = some ' ' then "2" else ""
    let chomp := if cs.getLast? = some '\n' then "" else "-"
    let body := Text.lines (Text.dropTail (· == '\n') cs)
    pad indent ++ key ++ ": |" ++ hint ++ chomp ++
      blockLines (indent + 2) (body.map String.ofList)
  else pad indent ++ key ++ ": " ++ scalar text

/-- An entry with a text. -/
def entry (indent : Nat) (key text : String) : String :=
  literalBlock indent key text

/-- Whether a condition is written as a folded block. -/
def isFolded (expression : String) : Bool :=
  Wrap.lineLimit < expression.length || expression.toList.contains '\n' ||
    needsQuotes expression

/-- The lines of a condition in a folded block. -/
def foldedLines (expression : String) : List String :=
  (Text.Str.lines expression).flatMap Wrap.Str.breakLines

/-- The entry of a condition: on one line if it is short and reads as a string, and else
as a folded block. -/
def ifEntry (indent : Nat) (expression : String) : String :=
  if isFolded expression then
    pad indent ++ "if: >" ++
      String.join ((foldedLines expression).map fun line => "\n" ++ pad (indent + 2) ++ line)
  else pad indent ++ "if: " ++ expression

/-! ### Values of the user -/

/-- The text of a value without white space at its end; nothing for a value that has no
text. -/
def printed (v : Value) : List Char :=
  Text.trimEnd (v.print.getD [])

/-- The lines of the text of a value. -/
def printedLines (v : Value) : List String :=
  (Text.lines (printed v)).map String.ofList

/-- An entry with a value: collections below the key, scalars behind it. -/
def valueEntry (indent : Nat) (key : String) (v : Value) : String :=
  let below :=
    pad indent ++ key ++ ":" ++
      String.join ((printedLines v).map fun line => "\n" ++ pad (indent + 2) ++ line)
  match v with
  | .mapping _ => below
  | .sequence _ => below
  | .null => pad indent ++ key ++ ":"
  | _ => pad indent ++ key ++ ": " ++ String.ofList (printed v)

/-- An item with a value, its dash at a column. -/
def listItem (indent : Nat) (v : Value) : String :=
  match printedLines v with
  | [] => ""
  | first :: rest =>
    pad indent ++ "- " ++ first ++
      String.join (rest.map fun line => "\n" ++ pad indent ++ "  " ++ line)

end AgentPipeline.Yaml
