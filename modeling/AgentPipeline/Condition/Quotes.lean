/-!
# Quotes

In the text of a condition a string stands between two single or two double quotes, and
a backslash between them takes the character after it out of consideration. Whoever
looks for operators, parentheses or white space outside of strings follows the same
three states from character to character.
-/

namespace AgentPipeline

/-- Where a text stands with respect to quotes. -/
inductive Quotes where
  /-- outside of quotes -/
  | outside
  /-- between quotes of this kind -/
  | inside (quote : Char)
  /-- between quotes of this kind, behind a backslash -/
  | escaped (quote : Char)
  deriving Repr, DecidableEq, Inhabited

namespace Quotes

/-- The characters that open quotes. -/
def opens (c : Char) : Bool :=
  c == '\'' || c == '"'

/-- The state behind one more character. -/
def next : Quotes → Char → Quotes
  | .outside, c => if opens c then .inside c else .outside
  | .inside q, c => if c = '\\' then .escaped q else if c = q then .outside else .inside q
  | .escaped q, _ => .inside q

/-- The state behind a text. -/
def after (state : Quotes) (text : List Char) : Quotes :=
  text.foldl next state

end Quotes

end AgentPipeline
