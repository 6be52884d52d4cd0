import AgentPipeline.Text.Blank
import AgentPipeline.Condition.Quotes

/-!
# Long expressions on several lines

A rendered expression that exceeds the line limit is cut at white space outside of
quotes. A run of white space is a **break point** if a reader expects a new line there:
behind `||` or `&&`, and, at the finer of the two grains, also behind an opening or in
front of a closing parenthesis. The segments between the break points are then packed
into lines, each taking as many segments as fit.

The coarse grain breaks only outside of all parentheses; a packed line that is still too
long is cut again at the fine grain.

## Main definitions

* `splitAtBreaks`: the segments of a text between its break points.
* `pack`: segments joined into lines within the limit.
* `breakLines`, `breakAtParens`: the lines of an expression at the coarse grain with the
  fine one as the fallback, and at the fine grain alone.
-/

namespace AgentPipeline.Wrap

/-- The number of characters a line may have. -/
def lineLimit : Nat := 120

/-- Where an expression may be broken. -/
inductive Grain where
  /-- behind operators outside of all parentheses -/
  | topLevel
  /-- behind operators and inside the parentheses at any depth -/
  | anyDepth
  deriving Repr, DecidableEq, Inhabited

/-- Whether a reversed text ends in a binary operator. -/
def endsInOperator : List Char → Bool
  | '|' :: '|' :: _ => true
  | '&' :: '&' :: _ => true
  | _ => false

/-- Whether the white space behind the reversed segment, in front of `next`, is a break
point when `depth` parentheses are open. -/
def isBreak (grain : Grain) (depth : Int) (segment : List Char) (next : Char) : Bool :=
  match segment with
  | [] => false
  | last :: _ =>
    match grain with
    | .topLevel => depth == 0 && endsInOperator segment
    | .anyDepth => endsInOperator segment || last == '(' || next == ')'

/-- The change of the parenthesis depth at a character. -/
def depthChange (c : Char) : Int :=
  if c = '(' then 1 else if c = ')' then -1 else 0

/-- The segments of a text, read on from a state: the open parentheses, the quotes, the
segment so far and the white space behind it, both reversed. -/
def splitFrom (grain : Grain) (depth : Int) (quotes : Quotes) (segment gap : List Char) :
    List Char → List (List Char)
  | [] => [Text.trim segment.reverse]
  | c :: cs =>
    let next := quotes.next c
    if quotes ≠ .outside then splitFrom grain depth next (c :: segment) [] cs
    else if Text.isBlank c then splitFrom grain depth next segment (c :: gap) cs
    else
      let depth' := depth + depthChange c
      if gap ≠ [] ∧ isBreak grain depth segment c then
        Text.trim segment.reverse :: splitFrom grain depth' next [c] [] cs
      else splitFrom grain depth' next (c :: (gap ++ segment)) [] cs

/-- The segments of a text between its break points, without white space at their ends
and without empty ones. -/
def splitAtBreaks (grain : Grain) (text : List Char) : List (List Char) :=
  (splitFrom grain 0 .outside [] [] text).filter (· ≠ [])

/-- Whether a text fits on a line. -/
def fits (text : List Char) : Bool :=
  text.length ≤ lineLimit

/-- Add segments to the line that has been begun, and start a new line where the limit
would be exceeded. -/
def packFrom (line : List Char) : List (List Char) → List (List Char)
  | [] => if line = [] then [] else [line]
  | segment :: rest =>
    if line = [] then packFrom segment rest
    else if line.length + 1 + segment.length ≤ lineLimit then
      packFrom (line ++ ' ' :: segment) rest
    else line :: packFrom segment rest

/-- The segments joined by spaces into lines, as many on each line as fit. -/
def pack (segments : List (List Char)) : List (List Char) :=
  packFrom [] segments

/-- The lines of an expression that may be broken at any depth. -/
def breakAtParens (text : List Char) : List (List Char) :=
  let trimmed := Text.trim text
  if fits trimmed then [trimmed] else pack (splitAtBreaks .anyDepth trimmed)

/-- The lines of an expression, broken inside parentheses only where a line would still
be too long. -/
def breakLines (text : List Char) : List (List Char) :=
  let trimmed := Text.trim text
  if fits trimmed then [trimmed]
  else
    (pack (splitAtBreaks .topLevel trimmed)).flatMap fun line =>
      if fits line then [line] else breakAtParens line

namespace Str

/-- The lines of an expression. -/
def breakLines (text : String) : List String :=
  (Wrap.breakLines text.toList).map String.ofList

/-- The lines of an expression that may be broken at any depth. -/
def breakAtParens (text : String) : List String :=
  (Wrap.breakAtParens text.toList).map String.ofList

end Str

end AgentPipeline.Wrap
