import AgentPipeline.Text.CharClass
import AgentPipeline.Text.Blank
import AgentPipeline.Dictionary

/-!
# References and templates

An expression reads the result or the outputs of another job through `needs.<job>.`. The
jobs that a text refers to are found by scanning it from the left: a reference starts at
a word boundary and is used up by its match, so references do not overlap.

Text outside of conditions is evaluated only within templates, `$` followed by an
expression in double braces. A template ends at the first pair of closing braces on its
line.

## Main definitions

* `needsReferences`: the jobs that a text refers to.
* `templates`: the expressions of the templates in a text.
* `templateReferences`: the jobs that the templates in a text refer to.
* `unwrapTemplate`, `wrapTemplate`: remove and add the braces of a template.
-/

namespace AgentPipeline.Reference

/-- The characters a job name may start with. -/
def isNameStart (c : Char) : Bool :=
  c.isAlpha || c == '_'

/-- The characters a job name may go on with. -/
def isNameChar (c : Char) : Bool :=
  c.isAlphanum || c == '_' || c == '-'

/-- The job name of the reference at the start of a text. -/
def nameAt : List Char → Option (List Char)
  | 'n' :: 'e' :: 'e' :: 'd' :: 's' :: '.' :: c :: cs =>
    if isNameStart c ∧ (cs.dropWhile isNameChar).head? = some '.' then
      some (c :: cs.takeWhile isNameChar)
    else none
  | _ => none

/-- Whether a reference may start behind this character. -/
def atBoundary : Option Char → Bool
  | some c => !Text.isWordChar c
  | none => true

/-- The job names of the references in a text, after `skip` characters that belong to
the reference before; `previous` is the character in front of the text. -/
def namesFrom (skip : Nat) (previous : Option Char) : List Char → List (List Char)
  | [] => []
  | c :: cs =>
    match skip with
    | skip + 1 => namesFrom skip (some c) cs
    | 0 =>
      match if atBoundary previous then nameAt (c :: cs) else none with
      | some name => name :: namesFrom (name.length + 6) (some c) cs
      | none => namesFrom 0 (some c) cs

/-- The expression of the template at the start of a text, up to its closing braces. -/
def templateBody : List Char → Option (List Char)
  | [] => none
  | '}' :: '}' :: _ => some []
  | c :: cs => if c = '\n' then none else (templateBody cs).map (c :: ·)

/-- The expression of the template that starts here, its braces included. -/
def templateAt : List Char → Option (List Char)
  | '$' :: '\x7b' :: '\x7b' :: cs => templateBody cs
  | _ => none

/-- The expressions of the templates in a text, after `skip` characters that belong to
the template before. -/
def templatesFrom (skip : Nat) : List Char → List (List Char)
  | [] => []
  | c :: cs =>
    match skip with
    | skip + 1 => templatesFrom skip cs
    | 0 =>
      match templateAt (c :: cs) with
      | some body => body :: templatesFrom (body.length + 4) cs
      | none => templatesFrom 0 cs

/-- The jobs that a text refers to. -/
def needsReferences (text : String) : NameSet :=
  .ofList ((namesFrom 0 none text.toList).map String.ofList)

/-- The expressions of the templates in a text, in order. -/
def templates (text : String) : List String :=
  (templatesFrom 0 text.toList).map String.ofList

/-- The jobs that the templates in a text refer to. -/
def templateReferences (text : String) : NameSet :=
  (templates text).foldl (fun names body => names.union (needsReferences body)) .empty

/-- The characters between the two pairs of braces, if the text has both. -/
def betweenBraces : List Char → Option (List Char)
  | '$' :: '\x7b' :: '\x7b' :: rest =>
    match rest.reverse with
    | '}' :: '}' :: inner => some inner.reverse
    | _ => none
  | _ => none

/-- An expression without the braces of a template around it. -/
def unwrapTemplate (text : String) : String :=
  let trimmed := Text.trim text.toList
  match betweenBraces trimmed with
  | some inner => String.ofList (Text.trim inner)
  | none => String.ofList trimmed

/-- An expression in the braces of a template. -/
def wrapTemplate (expression : String) : String :=
  "$\x7b\x7b " ++ expression ++ " \x7d\x7d"

end AgentPipeline.Reference
