/-!
# Lines

A text is the concatenation of its **pieces**: stretches that end with a line feed, the
last one possibly without. The **lines** of the text are its pieces without their line
end, which is a line feed or a carriage return followed by one. A carriage return that
no line feed follows belongs to its line.

## Main statement

* `flatten_pieces`: cutting a text into pieces loses nothing.
-/

namespace AgentPipeline.Text

/-- The stretches of a text that end with a line feed, and the rest if there is one. -/
def pieces : List Char → List (List Char)
  | [] => []
  | c :: cs =>
    if c = '\n' then [c] :: pieces cs
    else
      match pieces cs with
      | [] => [[c]]
      | p :: ps => (c :: p) :: ps

/-- A piece without its line feed, and without a carriage return just before that. -/
def dropLineEnd (piece : List Char) : List Char :=
  match piece.reverse with
  | '\n' :: '\r' :: rest => rest.reverse
  | '\n' :: rest => rest.reverse
  | _ => piece

/-- The lines of a text, without their line ends. -/
def lines (cs : List Char) : List (List Char) :=
  (pieces cs).map dropLineEnd

/-- The pieces of a text, put together again, are the text. -/
theorem flatten_pieces (cs : List Char) : (pieces cs).flatten = cs := by
  induction cs with
  | nil => rfl
  | cons c cs ih =>
      unfold pieces
      split
      · simp [ih]
      · cases h : pieces cs with
        | nil => simp_all
        | cons p ps => simp_all

namespace Str

/-- The lines of a string, without their line ends. -/
def lines (s : String) : List String :=
  (Text.lines s.toList).map String.ofList

end Str

end AgentPipeline.Text
