import AgentPipeline.Yaml.Plain
import AgentPipeline.Yaml.Character
import AgentPipeline.Text.Line
import AgentPipeline.Text.Blank

/-!
# Writing YAML

Values are written in block style: an entry or an item per line, indented by two, the
items of a sequence that is the value of an entry flush with its key. Only empty
collections are written with brackets.

A string is written plain where that reads back as the same string; else between single
quotes; as a literal block if it has several lines; and between double quotes if it holds
a character that the other styles cannot carry. A key is put in front of a colon if it
is a scalar on one line or an empty collection, and short; any other key follows a
question mark.

## Main definitions

* `styleOf`: the style in which a string is written.
* `Value.print`: the text of a value. There is none for a tag directly below a tag, nor for
  a mapping without a tag whose only key is laid out like a single entry itself.
-/

namespace AgentPipeline.Yaml

/-! ### Style of a string -/

/-- Some neighbours in a text of which the first satisfies `p` and the second `q`. -/
def hasPair (p q : Char → Bool) : List Char → Bool
  | a :: b :: cs => (p a && q b) || hasPair p q (b :: cs)
  | _ => false

/-- A space at the end of a line of the text, the last one apart. -/
def spaceBeforeBreak (cs : List Char) : Bool := hasPair (· == ' ') isBreak cs

/-- A space at the start of a line of the text, the first one apart. -/
def spaceAfterBreak (cs : List Char) : Bool := hasPair isBreak (· == ' ') cs

/-- Characters that mean something at the start of a scalar. -/
def isIndicator (c : Char) : Bool :=
  "#,[]\x7b\x7d&*!|>'\"%@\x60".toList.contains c

/-- Whether a scalar would be cut short, or not be taken as plain at all, by the characters
that structure a block: `previous` is the character in front of the text. -/
def endsEarly (previous : Char) : List Char → Bool
  | [] => false
  | c :: cs =>
    (c == ':' && endsWord cs.head?) || (c == '#' && isBlankOrBreak previous) ||
      endsEarly c cs

/-- Whether the start of a scalar has a meaning of its own in a block. -/
def startsBlock : List Char → Bool
  | '-' :: '-' :: '-' :: _ => true
  | '.' :: '.' :: '.' :: _ => true
  | c :: cs =>
    isIndicator c || ((c == '?' || c == ':' || c == '-') && endsWord cs.head?)
  | [] => false

/-- Whether a text can be written plain in a block. -/
def allowsPlain (cs : List Char) : Bool :=
  match cs with
  | [] => true
  | c :: rest =>
    c != ' ' && cs.getLast? != some ' ' && cs.all (fun c => isPrintable c && !isBreak c) &&
      !startsBlock cs && !endsEarly c rest

/-- Whether a text can be written between single quotes. -/
def allowsSingle (cs : List Char) : Bool :=
  cs.all isPrintable && !spaceAfterBreak cs && !spaceBeforeBreak cs

/-- Whether a text can be written as a literal block. -/
def allowsLiteral (cs : List Char) : Bool :=
  cs.all isPrintable && !spaceBeforeBreak cs && cs.getLast? != some ' '

/-- The style in which a string is written. -/
def styleOf (s : String) : Style :=
  let cs := s.toList
  if cs.contains '\n' then if allowsLiteral cs then .literal else .double
  else if Plain.ofText s = .text ∧ !Plain.isZeroPadded cs ∧ allowsPlain cs then .plain
  else if allowsSingle cs then .single
  else .double

/-! ### Text of a string -/

/-- The letter that stands for a character behind a backslash. -/
def escapeLetter (c : Char) : Option Char :=
  escapeTable.lookup c

/-- A number in upper case hexadecimal, padded with zeros. -/
def hexPadded (width n : Nat) : List Char :=
  let ds := (Nat.toDigits 16 n).map Char.toUpper
  List.replicate (width - ds.length) '0' ++ ds

/-- A character between double quotes. -/
def doubleQuotedChar (c : Char) : List Char :=
  if isPrintable c ∧ !isBreak c ∧ c ≠ '"' ∧ c ≠ '\\' then [c]
  else
    match escapeLetter c with
    | some l => ['\\', l]
    | none =>
      let n := c.toNat
      if n ≤ 0xFF then ['\\', 'x'] ++ hexPadded 2 n
      else if n ≤ 0xFFFF then ['\\', 'u'] ++ hexPadded 4 n
      else ['\\', 'U'] ++ hexPadded 8 n

/-- The text with `indent` spaces at the start of each line that is not empty; `fresh`
tells whether it starts on a new line. -/
def indentLines (indent : Nat) (fresh : Bool) : List Char → List Char
  | [] => []
  | c :: cs =>
    if isBreak c then c :: indentLines indent true cs
    else (if fresh then List.replicate indent ' ' else []) ++ c :: indentLines indent false cs

/-- The header of a literal block: the indentation if the first line does not show it, and
what becomes of the line breaks at the end. -/
def literalHeader (cs : List Char) : List Char :=
  let hint := match cs.head? with
    | some c => if c = ' ' ∨ isBreak c then ['2'] else []
    | none => []
  let chomp := match cs.reverse with
    | c :: d :: _ => if !isBreak c then ['-'] else if isBreak d then ['+'] else []
    | [c] => if isBreak c then ['+'] else ['-']
    | [] => ['-']
  '|' :: (hint ++ chomp)

/-- A quote inside single quotes is written twice. -/
def doubleSingleQuotes (cs : List Char) : List Char :=
  cs.flatMap fun c => if c = '\'' then ['\'', '\''] else [c]

/-- The text of a string, with the lines of a block indented by `indent`. -/
def stringText (indent : Nat) (s : String) : List Char :=
  let cs := s.toList
  match styleOf s with
  | .plain => cs
  | .single =>
    let body := indentLines indent false (doubleSingleQuotes cs)
    let close := if cs.getLast?.any isBreak then List.replicate indent ' ' else []
    '\'' :: (body ++ close ++ ['\''])
  | .double => '"' :: (cs.flatMap doubleQuotedChar ++ ['"'])
  | _ => literalHeader cs ++ '\n' :: indentLines indent true cs

/-! ### Layout -/

/-- What stands in front of a node: nothing, the dash of an item, the question mark or
colon of an explicit entry, or the key of an entry with its colon. -/
inductive Opening where
  | document | item | explicit | entry
  deriving Repr, DecidableEq, Inhabited

/-- Spaces up to a column. -/
def spaces (n : Nat) : List Char := List.replicate n ' '

/-- The characters that a tag may hold as they are. -/
def isTagChar (c : Char) : Bool :=
  c.isAlphanum || "-_;/?:@&=+$,.~*'()[]".toList.contains c

/-- The bytes of a character in hexadecimal behind percent signs. -/
def percentEncoded (c : Char) : List Char :=
  (String.singleton c).toUTF8.toList.flatMap fun b => '%' :: hexPadded 2 b.toNat

/-- The characters of a tag, with percent escapes for those that it may not hold. -/
def tagChars (cs : List Char) : List Char :=
  cs.flatMap fun c => if isTagChar c then [c] else percentEncoded c

/-- A tag with its exclamation mark, which the name may have brought along. -/
def bangedTag (tag : String) : List Char :=
  match tag.toList with
  | '!' :: cs => '!' :: cs
  | cs => '!' :: cs

/-- The text of a tag. An exclamation mark alone is written between angle brackets. -/
def printTag (tag : String) : List Char :=
  match bangedTag tag with
  | '!' :: c :: cs => '!' :: tagChars (c :: cs)
  | cs => ['!', '<'] ++ tagChars cs ++ ['>']

/-- The column of the entries of a collection, for the column of the one around it. -/
def innerColumn (opening : Opening) (column : Nat) : Nat :=
  match opening with
  | .document => 0
  | _ => column + 2

/-- The column of the items of a sequence: that of the keys around it where it is the
value of an entry, or where a tag keeps it off the line of its question mark. -/
def itemColumn (opening : Opening) (isTagged : Bool) (column : Nat) : Nat :=
  match opening with
  | .entry => column
  | .explicit => if isTagged then column else column + 2
  | _ => innerColumn opening column

/-- The column of the lines of a block scalar. -/
def blockColumn (opening : Opening) (column : Nat) : Nat :=
  match opening with
  | .document => 2
  | _ => column + 2

/-- What separates a node on the same line from its opening. -/
def inlineGap : Opening → List Char
  | .document => []
  | _ => [' ']

/-- What separates the first line of a block collection from its opening. -/
def blockGap (opening : Opening) (isTagged : Bool) (column : Nat) : List Char :=
  match opening, isTagged with
  | .document, false => []
  | .item, false => [' ']
  | .explicit, false => [' ']
  | _, _ => '\n' :: spaces column

/-- A line break unless the text ends in one. -/
def lineEnd (text : List Char) : List Char :=
  if text.getLast?.any isBreak then [] else ['\n']

/-- Lines joined by line breaks, each but the first at a column. -/
def joinAt (column : Nat) : List (List Char) → List Char
  | [] => []
  | [line] => line
  | line :: rest => line ++ lineEnd line ++ spaces column ++ joinAt column rest

/-- The greatest length in bytes of a key in front of a colon. -/
def maxKeyLength : Nat := 128

/-- Whether a key may stand in front of a colon, where `tagLength` counts its tag. -/
def isShortKey (tagLength : Nat) : Value → Bool
  | .null => tagLength + 4 ≤ maxKeyLength
  | .bool b => tagLength + (toString b).utf8ByteSize ≤ maxKeyLength
  | .number n => tagLength + n.text.utf8ByteSize ≤ maxKeyLength
  | .string s => !s.toList.any isBreak && tagLength + s.utf8ByteSize ≤ maxKeyLength
  | .sequence items => items.isEmpty && tagLength ≤ maxKeyLength
  | .mapping entries => entries.isEmpty && tagLength ≤ maxKeyLength
  | .tagged tag v => isShortKey (String.ofList (bangedTag tag)).utf8ByteSize v

/-- Values that are laid out like a single entry: one under a tag, and a mapping of one
entry. -/
def isSingle : Value → Bool
  | .tagged _ _ => true
  | .mapping [_] => true
  | _ => false

mutual

/-- The text of a node behind its opening. The tag, if any, has been written in front
of it. -/
def printNode (opening : Opening) (isTagged : Bool) (column : Nat) :
    Value → Option (List Char)
  | .null => some (inlineGap opening ++ "null".toList)
  | .bool b => some (inlineGap opening ++ (toString b).toList)
  | .number n => some (inlineGap opening ++ n.text.toList)
  | .string s => some (inlineGap opening ++ stringText (blockColumn opening column) s)
  | .sequence [] => some (inlineGap opening ++ ['[', ']'])
  | .sequence (item :: items) =>
    let inner := itemColumn opening isTagged column
    do
      let lines ← printItems inner (item :: items)
      pure (blockGap opening isTagged inner ++ joinAt inner lines)
  | .mapping [] => some (inlineGap opening ++ ['\x7b', '\x7d'])
  | .mapping (entry :: entries) =>
    let inner := innerColumn opening column
    if !isTagged && entries.isEmpty && isSingle entry.1 then none
    else do
      let lines ← printEntries inner (entry :: entries)
      pure (blockGap opening isTagged inner ++ joinAt inner lines)
  | .tagged tag v =>
    if isTagged then none
    else do
      let body ← printNode opening true column v
      let gap := match opening, body with
        | .document, '\n' :: _ => []
        | .document, _ => [' ']
        | _, _ => []
      pure (inlineGap opening ++ printTag tag ++ gap ++ body)

/-- The items of a sequence behind their dashes. -/
def printItems (column : Nat) : List Value → Option (List (List Char))
  | [] => some []
  | v :: vs => do
    let line ← printNode .item false column v
    let rest ← printItems column vs
    pure (('-' :: line) :: rest)

/-- The entries of a mapping. -/
def printEntries (column : Nat) : List (Value × Value) → Option (List (List Char))
  | [] => some []
  | (k, v) :: rest => do
    let line ←
      if isShortKey 0 k then do
        let key ← printNode .entry false column k
        let value ← printNode .entry false column v
        pure (key.drop 1 ++ ':' :: value)
      else do
        let key ← printNode .explicit false column k
        let value ← printNode .explicit false column v
        let head := '?' :: key
        pure (head ++ lineEnd head ++ spaces column ++ ':' :: value)
    let lines ← printEntries column rest
    pure (line :: lines)

end

/-- The text of a value as a document, without the line break at its end. -/
def Value.print (v : Value) : Option (List Char) :=
  printNode .document false 0 v

end AgentPipeline.Yaml
