import AgentPipeline.Yaml.Character
import AgentPipeline.Number.Decimal

/-!
# Reading scalars

A scalar may extend over several lines. Within a plain or quoted scalar a single line
break stands for a space, and of several line breaks the first is dropped; white space
around them does not count. A literal block keeps its lines, and a folded block joins
those that start with no white space. The line breaks at the end of a block are dropped,
kept, or cut down to one, as its header says.

Each reader walks through the text once, character by character, and returns the text of
the scalar with what follows it.

## Main definitions

* `Position`: a place in a document.
* `Gap`: white space inside a scalar, and the text it stands for.
* `Lexeme`: a scalar that has been read.
* `readPlain`, `readQuoted`, `readBlock`: the three readers.
-/

namespace AgentPipeline.Yaml

/-- A place in a document: the bytes before it, the line, and the characters before it in
that line. -/
structure Position where
  index : Nat
  line : Nat
  column : Nat
  deriving Repr, DecidableEq, Inhabited

namespace Position

/-- The place behind a character on the same line. -/
def next (p : Position) (c : Char) : Position :=
  ⟨p.index + c.utf8Size, p.line, p.column + 1⟩

/-- The place behind some characters on the same line. -/
def skip (p : Position) (cs : List Char) : Position := cs.foldl next p

/-- The place behind a line break. -/
def nextLine (p : Position) (c : Char) : Position :=
  ⟨p.index + c.utf8Size, p.line + 1, 0⟩

end Position

/-- A scalar that has been read: its text, the place behind it, and what follows. -/
structure Lexeme where
  text : String
  /-- whether line breaks behind the scalar have been passed -/
  brokeLine : Bool
  position : Position
  rest : List Char
  deriving Repr

/-- Three dashes or three points at the start of a line, which separate documents. -/
def isDocumentMark : List Char → Bool
  | '-' :: '-' :: '-' :: cs => endsWord cs.head?
  | '.' :: '.' :: '.' :: cs => endsWord cs.head?
  | _ => false

/-- Space or tab. -/
def isSpaceOrTab (c : Char) : Bool :=
  c == ' ' || c == '\t'

/-! ### White space inside a scalar -/

/-- White space inside a scalar. -/
inductive Gap where
  /-- none -/
  | none
  /-- white space on one line, reversed -/
  | blanks (reversed : List Char)
  /-- a first line break, unless it was escaped, and further ones, reversed -/
  | breaks (first : Option Char) (more : List Char)
  deriving Repr, DecidableEq

namespace Gap

/-- The gap with one more space or tab. -/
def addBlank (c : Char) : Gap → Gap
  | .none => .blanks [c]
  | .blanks cs => .blanks (c :: cs)
  | gap => gap

/-- The gap with one more line break. -/
def addBreak (c : Char) : Gap → Gap
  | .breaks first more => .breaks first (c :: more)
  | _ => .breaks (some c) []

/-- The text that a gap stands for, reversed. -/
def text : Gap → List Char
  | .none => []
  | .blanks cs => cs
  | .breaks Option.none more => more
  | .breaks (Option.some c) more =>
    if c = '\n' then (if more = [] then [' '] else more) else more ++ [c]

/-- Whether there is a line break in the gap. -/
def isBroken : Gap → Bool
  | .breaks _ _ => true
  | _ => false

/-- Whether there is any white space in the gap. -/
def isEmpty : Gap → Bool
  | .none => true
  | _ => false

end Gap

/-! ### Plain scalars -/

/-- The characters that end a plain scalar between brackets. -/
def isFlowEnd (c : Char) : Bool :=
  c == ',' || c == '[' || c == ']' || c == '\x7b' || c == '\x7d'

/-- Characters behind which a colon cannot stand between brackets. -/
def confusesColon (c : Char) : Bool :=
  c == '?' || isFlowEnd c

/-- Whether a plain scalar ends in front of a character. -/
def endsPlain (flow : Bool) (c : Char) (next : Option Char) : Bool :=
  (c == ':' && endsWord next) || (flow && isFlowEnd c)

/-- Read a plain scalar on from `text`, which is reversed, and the gap behind it. Outside
of brackets its lines are indented at least to the column `least`. -/
def readPlain (flow : Bool) (least : Nat) (gap : Gap) (text : List Char) (p : Position) :
    List Char → Option Lexeme
  | [] => some ⟨String.ofList text.reverse, gap.isBroken, p, []⟩
  | c :: cs =>
    if isBreak c then readPlain flow least (gap.addBreak c) text (p.nextLine c) cs
    else if isSpaceOrTab c then
      if gap.isBroken ∧ p.column < least ∧ c = '\t' then none
      else readPlain flow least (gap.addBlank c) text (p.next c) cs
    else if (gap.isBroken ∧ !flow ∧ p.column < least) ∨
        (p.column = 0 ∧ isDocumentMark (c :: cs)) ∨ (c = '#' ∧ !gap.isEmpty) then
      some ⟨String.ofList text.reverse, gap.isBroken, p, c :: cs⟩
    else if flow ∧ c = ':' ∧ cs.head?.any confusesColon then none
    else if endsPlain flow c cs.head? then
      some ⟨String.ofList text.reverse, gap.isBroken, p, c :: cs⟩
    else readPlain flow least .none (c :: (gap.text ++ text)) (p.next c) cs

/-! ### Quoted scalars -/

/-- What the characters before say about the next one between quotes. -/
inductive Escape where
  /-- nothing -/
  | none
  /-- it is the second of two single quotes, or the scalar has ended -/
  | quote
  /-- it stands behind a backslash -/
  | backslash
  /-- it is one of `digits + 1` hexadecimal digits, and those before denote `value` -/
  | hex (digits value : Nat)
  deriving Repr, DecidableEq

/-- What a letter behind a backslash stands for: a character, or a number of hexadecimal
digits that give one. -/
def unescape (c : Char) : Option (Char ⊕ Nat) :=
  if c = '/' ∨ c = ' ' ∨ c = '\t' then
    some (.inl c)
  else if c = 'x' then some (.inr 1)
  else if c = 'u' then some (.inr 3)
  else if c = 'U' then some (.inr 7)
  else (escapeTable.find? (·.2 == c)).map (.inl ·.1)

/-- The character with a code point. -/
def charOfCode? (n : Nat) : Option Char :=
  if n < 0xD800 ∨ (0xDFFF < n ∧ n ≤ 0x10FFFF) then some (Char.ofNat n) else none

/-- Read a quoted scalar on from `text`, which is reversed, and the gap behind it. -/
def readQuoted (single : Bool) (escape : Escape) (gap : Gap) (text : List Char)
    (p : Position) : List Char → Option Lexeme
  | [] =>
    if escape = .quote then some ⟨String.ofList text.reverse, false, p, []⟩ else none
  | c :: cs =>
    match escape with
    | .quote =>
      if c = '\'' then readQuoted single .none .none (c :: text) (p.next c) cs
      else some ⟨String.ofList text.reverse, false, p, c :: cs⟩
    | .hex digits value =>
      if digitValue c < 16 then
        let value := value * 16 + digitValue c
        match digits with
        | digits + 1 => readQuoted single (.hex digits value) .none text (p.next c) cs
        | 0 =>
          match charOfCode? value with
          | some d => readQuoted single .none .none (d :: text) (p.next c) cs
          | none => none
      else none
    | .backslash =>
      if isBreak c then readQuoted single .none (.breaks Option.none []) text (p.nextLine c) cs
      else
        match unescape c with
        | some (.inl d) => readQuoted single .none .none (d :: text) (p.next c) cs
        | some (.inr digits) => readQuoted single (.hex digits 0) .none text (p.next c) cs
        | none => none
    | .none =>
      if isBreak c then readQuoted single .none (gap.addBreak c) text (p.nextLine c) cs
      else if isSpaceOrTab c then readQuoted single .none (gap.addBlank c) text (p.next c) cs
      else if p.column = 0 ∧ isDocumentMark (c :: cs) then none
      else
        let text := gap.text ++ text
        if single ∧ c = '\'' then readQuoted single .quote .none text (p.next c) cs
        else if !single ∧ c = '"' then
          some ⟨String.ofList text.reverse, false, p.next c, cs⟩
        else if !single ∧ c = '\\' then readQuoted single .backslash .none text (p.next c) cs
        else readQuoted single .none .none (c :: text) (p.next c) cs

/-! ### Block scalars -/

/-- What becomes of the line breaks at the end of a block. -/
inductive Chomping where
  | strip | clip | keep
  deriving Repr, DecidableEq, Inhabited

/-- How far the reading of a block has come. -/
structure Block where
  /-- whether the lines are folded -/
  folded : Bool
  chomping : Chomping
  /-- the column of the lines, once it is known -/
  indent : Option Nat
  /-- the least column that the lines may have -/
  least : Nat
  /-- the widest margin so far -/
  widest : Nat
  /-- the text so far, reversed -/
  text : List Char
  /-- the line break of the last line that is not empty -/
  lead : List Char
  /-- the line breaks of the empty lines behind it, reversed -/
  breaks : List Char
  /-- whether that line starts with white space -/
  leadBlank : Bool

namespace Block

/-- The column of the lines, from the margins if the header does not give it. -/
def column (b : Block) : Nat :=
  b.indent.getD (max b.widest (max b.least 1))

/-- The text of a finished block. -/
def finish (b : Block) : String :=
  let tail :=
    match b.chomping with
    | .strip => []
    | .clip => b.lead
    | .keep => b.breaks ++ b.lead
  String.ofList (tail ++ b.text).reverse

/-- The block when a line starts with the character `c`: the line breaks before it are
joined to the text. -/
def startLine (b : Block) (c : Char) : Block :=
  let joined :=
    if b.folded ∧ b.lead = ['\n'] ∧ !b.leadBlank ∧ !isSpaceOrTab c then
      if b.breaks = [] then [' '] else b.breaks
    else b.breaks ++ b.lead
  { b with
    indent := some b.column
    text := c :: (joined ++ b.text)
    lead := []
    breaks := []
    leadBlank := isSpaceOrTab c }

end Block

/-- Read a block on, inside one of its lines or in the margin in front of one. -/
def readBlock (inLine : Bool) (b : Block) (p : Position) : List Char → Option Lexeme
  | [] => some ⟨b.finish, true, p, []⟩
  | c :: cs =>
    if inLine then
      if isBreak c then readBlock false { b with lead := [c] } (p.nextLine c) cs
      else readBlock true { b with text := c :: b.text } (p.next c) cs
    else
      let inMargin := b.indent.all (p.column < ·)
      if c = ' ' ∧ inMargin then readBlock false b (p.next c) cs
      else if c = '\t' ∧ inMargin then none
      else
        let b := { b with widest := max b.widest p.column }
        if isBreak c then readBlock false { b with breaks := c :: b.breaks } (p.nextLine c) cs
        else if p.column = b.column then readBlock true (b.startLine c) (p.next c) cs
        else some ⟨b.finish, true, p, c :: cs⟩

end AgentPipeline.Yaml
