import AgentPipeline.Text.Blank
import AgentPipeline.Text.CharClass

/-!
# Assignments

A line of an environment file **assigns** a value to a variable. The name comes first,
possibly behind the word `export`, then an equals sign and the value, with white space
around each. Blank lines and lines that start with a number sign assign nothing.

A value goes to the end of the line, or to the first white space if a comment or nothing
follows that. Four characters are special in it:

* single quotes keep all that is between them;
* double quotes keep white space and single quotes;
* a backslash takes the meaning from a special character, and gives `n` that of a line feed;
* a dollar sign stands in front of the name of a variable, whose value takes the place of
  both. The name goes as far as letters and digits do; between braces it may be anything.

The character that ends a name without braces stands for itself, whatever it is.

## Main definitions

* `ValuePart`: characters and the values of variables.
* `Assignment`, `Assignment.ofLine?`: what a line assigns.
-/

namespace AgentPipeline

/-- A part of a value: a character, or the value that a variable has. -/
inductive ValuePart where
  | char (c : Char)
  | value (name : List Char)
  deriving Repr, DecidableEq

/-- A variable with the parts of its value. -/
structure Assignment where
  name : String
  parts : List ValuePart
  deriving Repr, DecidableEq

namespace Assignment

/-! ### Values -/

/-- Where in a value a character stands. -/
inductive Place where
  /-- where special characters have their meaning -/
  | plain
  /-- between single quotes -/
  | verbatim
  /-- behind a backslash -/
  | escaped
  /-- behind a dollar sign and this part of a name -/
  | name (read : List Char)
  /-- behind a dollar sign, a brace and this part of a name -/
  | braced (read : List Char)
  /-- behind the white space that ends the value -/
  | ended
  deriving Repr, DecidableEq

/-- What a character stands for behind a backslash. -/
def escape? (c : Char) : Option Char :=
  if c = 'n' then some '\n'
  else if c = '\\' || c = '\'' || c = '"' || c = '$' || c = ' ' then some c
  else none

/-- What the end of the line adds to a value, if the value may end there. -/
def atEnd (quoted : Bool) : Place → Option (List ValuePart)
  | .verbatim => none
  | .braced _ => none
  | .name read => if quoted then none else some [.value read]
  | .plain | .escaped | .ended => if quoted then none else some []

/-- The parts of a value from a place on; `quoted` tells whether double quotes are open. -/
def partsFrom (quoted : Bool) : Place → List Char → Option (List ValuePart)
  | place, [] => atEnd quoted place
  | .plain, c :: cs =>
    if c = '$' then partsFrom quoted (.name []) cs
    else if c = '\\' then partsFrom quoted .escaped cs
    else if c = '"' then partsFrom (!quoted) .plain cs
    else if quoted then (partsFrom quoted .plain cs).map (.char c :: ·)
    else if c = '\'' then partsFrom quoted .verbatim cs
    else if c = ' ' || c = '\t' then partsFrom quoted .ended cs
    else (partsFrom quoted .plain cs).map (.char c :: ·)
  | .verbatim, c :: cs =>
    if c = '\'' then partsFrom quoted .plain cs
    else (partsFrom quoted .verbatim cs).map (.char c :: ·)
  | .escaped, c :: cs =>
    match escape? c with
    | some meant => (partsFrom quoted .plain cs).map (.char meant :: ·)
    | none => none
  | .name read, c :: cs =>
    if Text.isAlphanumeric c then partsFrom quoted (.name (read ++ [c])) cs
    else if c = '\x7b' && read.isEmpty then partsFrom quoted (.braced []) cs
    else if c = '$' then (partsFrom quoted (.name []) cs).map (.value read :: ·)
    else (partsFrom quoted .plain cs).map fun parts => .value read :: .char c :: parts
  | .braced read, c :: cs =>
    if c = '\x7d' then (partsFrom quoted .plain cs).map (.value read :: ·)
    else partsFrom quoted (.braced (read ++ [c])) cs
  | .ended, c :: cs =>
    if c = ' ' || c = '\t' then partsFrom quoted .ended cs
    else if c = '#' then some []
    else none

/-- The parts of the value behind an equals sign. -/
def parts? (cs : List Char) : Option (List ValuePart) :=
  match Text.trimStart cs with
  | [] => some []
  | '#' :: _ => some []
  | cs => partsFrom false .plain cs

/-! ### Names -/

/-- The characters that names of variables start with. -/
def isNameStart (c : Char) : Bool :=
  c.isAlpha || c == '_'

/-- The characters of names of variables. -/
def isNameChar (c : Char) : Bool :=
  c.isAlphanum || c == '_' || c == '.'

/-- The name at the start of a text, and the text behind it and behind white space. -/
def name? : List Char → Option (List Char × List Char)
  | [] => none
  | c :: cs =>
    if isNameStart c then
      some (c :: cs.takeWhile isNameChar, Text.trimStart (cs.dropWhile isNameChar))
    else none

/-- The text behind an equals sign. -/
def behindEquals? : List Char → Option (List Char)
  | '=' :: cs => some cs
  | _ => none

/-- The name that a text assigns to, and the text behind the equals sign. A name `export`
that no equals sign follows stands in front of the name that is meant. -/
def target? (cs : List Char) : Option (List Char × List Char) := do
  let (name, rest) ← name? cs
  match behindEquals? rest with
  | some value => pure (name, value)
  | none =>
    if name = ['e', 'x', 'p', 'o', 'r', 't'] then
      let (name, rest) ← name? rest
      pure (name, ← behindEquals? rest)
    else none

/-! ### Lines -/

/-- What a line assigns, if anything; `none` for a line that is malformed. -/
def ofLine? (line : List Char) : Option (Option Assignment) :=
  match Text.trim line with
  | [] => some none
  | '#' :: _ => some none
  | cs => do
    let (name, value) ← target? cs
    pure (some ⟨String.ofList name, ← parts? value⟩)

end Assignment

end AgentPipeline
