import AgentPipeline.Yaml.Scalar
import AgentPipeline.Yaml.Tag

/-!
# Tokens of a document

A document is cut into **tokens**. Besides what is written there are tokens for what the
indentation says: the start and the end of a block collection. The token that marks a key
stands in front of the key, although a key is known as such only from the colon behind
it; where a key may start, the place is therefore noted as a **candidate**, and the mark is
put there when the colon comes. A key is written on one line and takes at most 1024 bytes.

## Main definitions

* `YamlToken`: tokens.
* `Scanner`: how far the reading of a document has come.
* `Scanner.tokens?`: the tokens of a document.
-/

namespace AgentPipeline.Yaml

/-- The tokens of a document. -/
inductive YamlToken where
  | versionDirective (major minor : Nat)
  | tagDirective (handle : String) (expansion : List UInt8)
  | documentStart | documentEnd
  | blockSequenceStart | blockMappingStart | blockEnd
  | flowSequenceStart | flowSequenceEnd | flowMappingStart | flowMappingEnd
  | blockEntry | flowEntry | key | value
  | alias (name : String)
  | anchor (name : String)
  | tag (handle : String) (suffix : List UInt8)
  | scalar (style : Style) (text : String)
  deriving Repr, DecidableEq, Inhabited

/-- A place where a key may have started. -/
structure Candidate where
  /-- the number of tokens before it -/
  token : Nat
  position : Position
  /-- whether nothing but a key can stand there -/
  required : Bool
  deriving Repr

/-- How far the reading of a document has come. -/
structure Scanner where
  rest : List Char
  position : Position
  tokens : Array YamlToken
  /-- the columns of the open block collections, from the innermost outwards -/
  columns : List Nat
  /-- whether a key may start here -/
  keyAllowed : Bool
  /-- the candidate at the current depth of brackets -/
  candidate : Option Candidate
  /-- the candidates at the depths outside of it -/
  outer : List (Option Candidate)

namespace Scanner

/-- The start of a document. -/
def start (text : List Char) : Scanner :=
  ⟨text, ⟨0, 0, 0⟩, #[], [], true, none, []⟩

/-- Whether the place is between brackets. -/
def inFlow (s : Scanner) : Bool := !s.outer.isEmpty

/-- The column of the innermost open collection is less than this one. -/
def isDeeper (s : Scanner) (column : Nat) : Bool :=
  s.columns.head?.all (· < column)

/-- The least column of a scalar that goes on to a further line. -/
def leastColumn (s : Scanner) : Nat :=
  match s.columns.head? with
  | some column => column + 1
  | none => 0

/-- The scanner with one more token. -/
def push (s : Scanner) (t : YamlToken) : Scanner :=
  { s with tokens := s.tokens.push t }

/-- The scanner behind `n` characters on the same line. -/
def skip (s : Scanner) (n : Nat) : Scanner :=
  { s with rest := s.rest.drop n, position := s.position.skip (s.rest.take n) }

/-- The scanner with another answer to whether a key may start. -/
def allowKey (s : Scanner) (allowed : Bool) : Scanner :=
  { s with keyAllowed := allowed }

/-! ### Keys and indentation -/

/-- Give up a candidate. That is an error where only a key can stand. -/
def withdraw : Option Candidate → Option (Option Candidate)
  | some c => if c.required then none else some none
  | none => some none

/-- Give up a candidate unless it may still turn out to be a key at a position. -/
def refresh (p : Position) : Option Candidate → Option (Option Candidate)
  | some c =>
    if c.position.line < p.line ∨ c.position.index + 1024 < p.index then withdraw (some c)
    else some (some c)
  | none => some none

/-- Give up all candidates that can no longer be keys. -/
def refreshAll (s : Scanner) : Option Scanner := do
  let candidate ← refresh s.position s.candidate
  let outer ← s.outer.mapM (refresh s.position)
  pure { s with candidate, outer }

/-- Give up the candidate at the current depth. -/
def dropCandidate (s : Scanner) : Option Scanner := do
  let candidate ← withdraw s.candidate
  pure { s with candidate }

/-- Note a candidate if a key may start here. -/
def saveCandidate (s : Scanner) : Option Scanner :=
  if s.keyAllowed then do
    let s ← s.dropCandidate
    let required := !s.inFlow && s.columns.head? == some s.position.column
    pure { s with candidate := some ⟨s.tokens.size, s.position, required⟩ }
  else some s

/-- Open a block collection at a column, unless one is open there, with its start as the
token number `place`. -/
def openBlock (s : Scanner) (column place : Nat) (t : YamlToken) : Scanner :=
  if !s.inFlow && s.isDeeper column then
    { s with
      columns := column :: s.columns
      tokens := s.tokens.insertIdxIfInBounds place t }
  else s

/-- Close the given number of block collections. -/
def closeBlocks (s : Scanner) (n : Nat) : Scanner :=
  { s with
    columns := s.columns.drop n
    tokens := s.tokens ++ Array.replicate n .blockEnd }

/-- Close the block collections that are indented further than the current place. -/
def closeDeeper (s : Scanner) : Scanner :=
  if s.inFlow then s
  else s.closeBlocks (s.columns.takeWhile (s.position.column < ·)).length

/-- Close all block collections. -/
def closeAll (s : Scanner) : Scanner :=
  if s.inFlow then s else s.closeBlocks s.columns.length

/-! ### White space and comments -/

/-- Pass over white space, comments and line breaks. A byte order mark at the start of a
line is passed over like a space, and a tab may not stand where a key may start outside of
brackets. -/
def passFrom (flow allowed comment : Bool) (p : Position) :
    List Char → Bool × Position × List Char
  | [] => (allowed, p, [])
  | c :: cs =>
    if isBreak c then passFrom flow (allowed || !flow) false (p.nextLine c) cs
    else if comment then passFrom flow allowed true (p.next c) cs
    else if c = ' ' ∨ (c = '\t' ∧ (flow ∨ !allowed)) ∨ (isByteOrderMark c ∧ p.column = 0) then
      passFrom flow allowed false (p.next c) cs
    else if c = '#' then passFrom flow allowed true (p.next c) cs
    else (allowed, p, c :: cs)

/-- Pass over white space, comments and line breaks. -/
def passGap (s : Scanner) : Scanner :=
  let (keyAllowed, position, rest) := passFrom s.inFlow s.keyAllowed false s.position s.rest
  { s with keyAllowed, position, rest }

/-! ### Names, tags and directives -/

/-- The characters of the names of anchors, tag handles and directives. -/
def isNameChar (c : Char) : Bool :=
  c.isAlphanum || c == '_' || c == '-'

/-- The characters of a tag, those that only occur between angle brackets included if
`verbatim` holds. -/
def isUriChar (verbatim : Bool) (c : Char) : Bool :=
  isNameChar c || ";/?:@&=+$.%!~*'()".toList.contains c ||
    (verbatim && ",[]".toList.contains c)

/-- Read the characters of a tag: its bytes, the number of characters read, and what
follows. -/
def readUri (verbatim : Bool) (cs : List Char) : Option (List UInt8 × Nat × List Char) := do
  let taken := cs.takeWhile (isUriChar verbatim)
  pure (← Tag.unescape? taken, taken.length, cs.dropWhile (isUriChar verbatim))

/-- Read the tag at the start of a text: its handle and suffix, the number of characters
read, and what follows. -/
def readTag : List Char → Option (String × List UInt8 × Nat × List Char)
  | '!' :: '<' :: cs => do
    let (uri, width, rest) ← readUri true cs
    match rest with
    | '>' :: rest => if width = 0 then none else pure ("", uri, width + 3, rest)
    | _ => none
  | '!' :: cs =>
    let name := cs.takeWhile isNameChar
    match cs.dropWhile isNameChar with
    | '!' :: rest => do
      let (uri, width, rest) ← readUri false rest
      if width = 0 then none
      else pure ("!" ++ String.ofList name ++ "!", uri, name.length + 2 + width, rest)
    | rest => do
      let (uri, width, rest) ← readUri false rest
      let suffix := (Tag.ofText (String.ofList name)).bytes ++ uri
      let width := 1 + name.length + width
      if suffix = [] then pure ("", (Tag.ofText "!").bytes, width, rest)
      else pure ("!", suffix, width, rest)
  | _ => none

/-- The text behind leading spaces and tabs. -/
def dropBlanks (cs : List Char) : List Char := cs.dropWhile isSpaceOrTab

/-- A number of at most nine digits. -/
def readNumber (cs : List Char) : Option (Nat × List Char) := do
  let digits := cs.takeWhile Char.isDigit
  if 9 < digits.length then none
  else pure (← digitsToNat 10 digits, cs.dropWhile Char.isDigit)

/-- The directive in the rest of a line. -/
def readDirective (line : List Char) : Option YamlToken := do
  let name := String.ofList (line.takeWhile isNameChar)
  let rest := line.dropWhile isNameChar
  if name = "" ∨ !endsWord rest.head? then none
  let rest := dropBlanks rest
  let (token, rest) ←
    if name = "YAML" then do
      let (major, rest) ← readNumber rest
      match rest with
      | '.' :: rest =>
        let (minor, rest) ← readNumber rest
        pure (YamlToken.versionDirective major minor, rest)
      | _ => none
    else if name = "TAG" then do
      match rest with
      | '!' :: rest =>
        let word := rest.takeWhile isNameChar
        let rest := rest.dropWhile isNameChar
        let (handle, rest) ←
          match rest with
          | '!' :: rest => some ("!" ++ String.ofList word ++ "!", rest)
          | rest => if word = [] then some ("!", rest) else none
        if !rest.head?.any isSpaceOrTab then none
        let (uri, width, rest) ← readUri true (dropBlanks rest)
        if width = 0 ∨ !endsWord rest.head? then none
        pure (YamlToken.tagDirective handle uri, rest)
      | _ => none
    else none
  match dropBlanks rest with
  | [] => pure token
  | '#' :: _ => pure token
  | _ => none

/-! ### One token -/

/-- Read a directive. -/
def fetchDirective (s : Scanner) : Option Scanner := do
  let s ← s.closeAll.dropCandidate
  let line := (s.rest.drop 1).takeWhile (!isBreak ·)
  let token ← readDirective line
  pure (((s.skip (line.length + 1)).allowKey false).push token)

/-- Read the mark that separates documents. -/
def fetchDocumentMark (s : Scanner) (t : YamlToken) : Option Scanner := do
  let s ← s.closeAll.dropCandidate
  pure (((s.skip 3).allowKey false).push t)

/-- Read an opening bracket. -/
def fetchFlowStart (s : Scanner) (t : YamlToken) : Option Scanner := do
  let s ← s.saveCandidate
  let s := { s with candidate := none, outer := s.candidate :: s.outer }
  pure (((s.skip 1).allowKey true).push t)

/-- Read a closing bracket. -/
def fetchFlowEnd (s : Scanner) (t : YamlToken) : Option Scanner := do
  let s ← s.dropCandidate
  let s :=
    match s.outer with
    | candidate :: outer => { s with candidate, outer }
    | [] => s
  pure (((s.skip 1).allowKey false).push t)

/-- Read a comma between brackets. -/
def fetchFlowEntry (s : Scanner) : Option Scanner := do
  let s ← s.dropCandidate
  pure (((s.skip 1).allowKey true).push .flowEntry)

/-- Read the dash of an item. -/
def fetchBlockEntry (s : Scanner) : Option Scanner := do
  if !s.inFlow && !s.keyAllowed then none
  let s := s.openBlock s.position.column s.tokens.size .blockSequenceStart
  let s ← s.dropCandidate
  pure (((s.skip 1).allowKey true).push .blockEntry)

/-- Read the question mark of a key. -/
def fetchKey (s : Scanner) : Option Scanner := do
  if !s.inFlow && !s.keyAllowed then none
  let s := s.openBlock s.position.column s.tokens.size .blockMappingStart
  let s ← s.dropCandidate
  pure (((s.skip 1).allowKey !s.inFlow).push .key)

/-- Read the colon of a value. -/
def fetchValue (s : Scanner) : Option Scanner :=
  match s.candidate with
  | some c =>
    let s := { s with tokens := s.tokens.insertIdxIfInBounds c.token .key, candidate := none }
    let s := s.openBlock c.position.column c.token .blockMappingStart
    some (((s.skip 1).allowKey false).push .value)
  | none =>
    if !s.inFlow && !s.keyAllowed then none
    else
      let s := s.openBlock s.position.column s.tokens.size .blockMappingStart
      some (((s.skip 1).allowKey !s.inFlow).push .value)

/-- Read an alias or an anchor. -/
def fetchName (s : Scanner) (isAlias : Bool) : Option Scanner := do
  let s ← s.saveCandidate
  let name := (s.rest.drop 1).takeWhile isNameChar
  let next := (s.rest.drop (name.length + 1)).head?
  if name = [] ∨ !(endsWord next || next.any "?:,]\x7d%@\x60".toList.contains) then none
  let text := String.ofList name
  pure (((s.skip (name.length + 1)).allowKey false).push
    (if isAlias then .alias text else .anchor text))

/-- Read a tag. -/
def fetchTag (s : Scanner) : Option Scanner := do
  let s ← s.saveCandidate
  let (handle, suffix, width, rest) ← readTag s.rest
  if !(endsWord rest.head? || (s.inFlow && rest.head? == some ',')) then none
  let position := s.position.skip (s.rest.take width)
  pure (({ s with rest, position }.allowKey false).push (.tag handle suffix))

/-- The header of a block scalar behind its mark: what becomes of the line breaks at the
end, and the indentation if it is given. -/
def readBlockHeader (line : List Char) : Option (Chomping × Option Nat) := do
  let chomping? (c : Char) : Option Chomping :=
    if c = '+' then some .keep else if c = '-' then some .strip else none
  let (chomping, indent, rest) :=
    match line with
    | c :: cs =>
      match chomping? c with
      | some chomping =>
        match cs with
        | d :: ds => if d.isDigit then (chomping, some d, ds) else (chomping, none, cs)
        | [] => (chomping, none, [])
      | none =>
        if c.isDigit then
          match cs with
          | d :: ds =>
            match chomping? d with
            | some chomping => (chomping, some c, ds)
            | none => (.clip, some c, cs)
          | [] => (.clip, some c, [])
        else (.clip, none, line)
    | [] => (.clip, none, [])
  if indent = some '0' then none
  let indent := indent.map fun d => d.toNat - '0'.toNat
  match dropBlanks rest with
  | [] => pure (chomping, indent)
  | '#' :: _ => pure (chomping, indent)
  | _ => none

/-- Take over a scalar that has been read. -/
def pushScalar (s : Scanner) (style : Style) (l : Lexeme) (keyAllowed : Bool) : Scanner :=
  { s with rest := l.rest, position := l.position, keyAllowed }.push (.scalar style l.text)

/-- Read a block scalar. -/
def fetchBlockScalar (s : Scanner) (folded : Bool) : Option Scanner := do
  let s ← s.dropCandidate
  let line := (s.rest.drop 1).takeWhile (!isBreak ·)
  let (chomping, indent) ← readBlockHeader line
  let least := s.leastColumn
  let base := s.columns.head?.getD 0
  let block : Block :=
    ⟨folded, chomping, indent.map (base + ·), least, 0, [], [], [], false⟩
  let s := s.skip (line.length + 1)
  let (p, rest) :=
    match s.rest with
    | [] => (s.position, [])
    | c :: rest => (s.position.nextLine c, rest)
  let l ← readBlock false block p rest
  pure (s.pushScalar (if folded then .folded else .literal) l true)

/-- Read a quoted scalar. -/
def fetchQuoted (s : Scanner) (single : Bool) : Option Scanner := do
  let s := (← s.saveCandidate).skip 1
  let l ← readQuoted single .none .none [] s.position s.rest
  pure (s.pushScalar (if single then .single else .double) l false)

/-- Read a plain scalar. -/
def fetchPlain (s : Scanner) : Option Scanner := do
  let s ← s.saveCandidate
  let l ← readPlain s.inFlow s.leastColumn .none [] s.position s.rest
  pure (s.pushScalar .plain l l.brokeLine)

/-- Whether a plain scalar may start with a character. -/
def startsPlain (flow : Bool) (c : Char) (next : Option Char) : Bool :=
  !(isBlankOrBreak c || "-?:,[]\x7b\x7d#&*!|>'\"%@\x60".toList.contains c) ||
    (c == '-' && !next.any isSpaceOrTab) ||
    (!flow && (c == '?' || c == ':') && !endsWord next)

/-- Read the token that starts with the character `c`. -/
def fetch (s : Scanner) (c : Char) (cs : List Char) : Option Scanner :=
  let next := cs.head?
  if s.position.column = 0 ∧ c = '%' then s.fetchDirective
  else if s.position.column = 0 ∧ isDocumentMark (c :: cs) then
    s.fetchDocumentMark (if c = '-' then .documentStart else .documentEnd)
  else if c = '[' then s.fetchFlowStart .flowSequenceStart
  else if c = '\x7b' then s.fetchFlowStart .flowMappingStart
  else if c = ']' then s.fetchFlowEnd .flowSequenceEnd
  else if c = '\x7d' then s.fetchFlowEnd .flowMappingEnd
  else if c = ',' then s.fetchFlowEntry
  else if c = '-' ∧ endsWord next then s.fetchBlockEntry
  else if c = '?' ∧ (s.inFlow ∨ endsWord next) then s.fetchKey
  else if c = ':' ∧ (s.inFlow ∨ endsWord next) then s.fetchValue
  else if c = '*' then s.fetchName true
  else if c = '&' then s.fetchName false
  else if c = '!' then s.fetchTag
  else if c = '|' ∧ !s.inFlow then s.fetchBlockScalar false
  else if c = '>' ∧ !s.inFlow then s.fetchBlockScalar true
  else if c = '\'' then s.fetchQuoted true
  else if c = '"' then s.fetchQuoted false
  else if startsPlain s.inFlow c next then s.fetchPlain
  else none

/-- The tokens of a document, read on from a state. Each step reads at least one
character, which bounds the fuel. -/
def run : Nat → Scanner → Option (List YamlToken)
  | 0, _ => none
  | fuel + 1, s => do
    let s ← s.passGap.refreshAll
    let s := s.closeDeeper
    match s.rest with
    | [] => do
      let s ← s.closeAll.dropCandidate
      pure s.tokens.toList
    | c :: cs => run fuel (← s.fetch c cs)

/-- The tokens of a document. -/
def tokens? (text : List Char) : Option (List YamlToken) :=
  run (text.length + 1) (start text)

end Scanner

end AgentPipeline.Yaml
