/-!
# Characters and styles of YAML

The classes of characters that structure a document, the characters a document may
consist of, and the styles in which a scalar can be written.

A document is read with its line breaks brought to one form: `normalizeBreaks` turns a
carriage return, a carriage return with a line feed, and the next-line control into a
line feed. The line and the paragraph separator are line breaks of their own.

## Main definitions

* `isBreak`, `isBlankOrBreak`, `isPrintable`: classes of characters.
* `Style`: the styles of a scalar.
* `decode`: the characters of a document, if all of them are allowed.
-/

namespace AgentPipeline.Yaml

/-- Line breaks: line feed, carriage return, next line, line and paragraph separator. -/
def isBreak (c : Char) : Bool :=
  c == '\n' || c == '\r' || c.toNat == 0x85 || c.toNat == 0x2028 || c.toNat == 0x2029

/-- Space, tab, or a line break. -/
def isBlankOrBreak (c : Char) : Bool :=
  c == ' ' || c == '\t' || isBreak c

/-- Whether a character separates words, as the end of the text does. -/
def endsWord : Option Char → Bool
  | some c => c.toNat == 0 || isBlankOrBreak c
  | none => true

/-- Characters that may stand in a document as they are. -/
def isPrintable (c : Char) : Bool :=
  let n := c.toNat
  n == 0x0A || (0x20 ≤ n && n ≤ 0x7E) || (0xA0 ≤ n && n ≤ 0xD7FF) ||
    (0xE000 ≤ n && n ≤ 0xFFFD && n != 0xFEFF) || 0x10000 ≤ n

/-- The styles of a scalar. -/
inductive Style where
  | plain | single | double | literal | folded
  deriving Repr, DecidableEq, Inhabited

/-- The hexadecimal and other letters that stand for a character behind a backslash
between double quotes. -/
def escapeTable : List (Char × Char) :=
  [('\x00', '0'), ('\x07', 'a'), ('\x08', 'b'), ('\t', 't'), ('\n', 'n'), ('\x0b', 'v'),
    ('\x0c', 'f'), ('\r', 'r'), ('\x1b', 'e'), ('"', '"'), ('\\', '\\'), ('\u0085', 'N'),
    ('\u00a0', '_'), ('\u2028', 'L'), ('\u2029', 'P')]

/-! ### Decoding -/

/-- The byte order mark. -/
def isByteOrderMark (c : Char) : Bool := c.toNat == 0xFEFF

/-- Characters that a document may hold: the printable ones, tab, carriage return, the
next-line control and the byte order mark. -/
def isAllowed (c : Char) : Bool :=
  isPrintable c || c == '\t' || c == '\r' || c.toNat == 0x85 || isByteOrderMark c

/-- The text with its line breaks brought to one form. -/
def normalizeBreaks : List Char → List Char
  | [] => []
  | '\r' :: '\n' :: cs => '\n' :: normalizeBreaks cs
  | c :: cs => (if c = '\r' ∨ c.toNat = 0x85 then '\n' else c) :: normalizeBreaks cs

/-- The characters of a document, unless one of them is not allowed. -/
def decode (text : List Char) : Option (List Char) :=
  if text.all isAllowed then some (normalizeBreaks text) else none

end AgentPipeline.Yaml
