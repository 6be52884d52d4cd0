/-!
# White space

White space in this library is Unicode's `White_Space` property, a fixed set of 25
characters. Three operations rest on it: `trim` removes it from both ends of a text,
`words` cuts a text at it, and `collapse` writes the words back with one space between
them.

The functions work on lists of characters; the versions for strings carry the same name
in the namespace `Text.Str`.
-/

namespace AgentPipeline.Text

/-- The white space characters: tab to carriage return, the space, the next-line control,
the no-break space, and the typographic spaces and separators of Unicode. -/
def isBlank (c : Char) : Bool :=
  let n := c.toNat
  (9 ≤ n && n ≤ 13) || n == 0x20 || n == 0x85 || n == 0xA0 || n == 0x1680 ||
    (0x2000 ≤ n && n ≤ 0x200A) || n == 0x2028 || n == 0x2029 || n == 0x202F ||
    n == 0x205F || n == 0x3000

/-- The text without its leading white space. -/
def trimStart (cs : List Char) : List Char :=
  cs.dropWhile isBlank

/-- The text without the longest tail of characters that satisfy `p`. -/
def dropTail (p : Char → Bool) (cs : List Char) : List Char :=
  (cs.reverse.dropWhile p).reverse

/-- The text without its trailing white space. -/
def trimEnd (cs : List Char) : List Char :=
  dropTail isBlank cs

/-- The text without white space at either end. -/
def trim (cs : List Char) : List Char :=
  trimEnd (trimStart cs)

/-- The maximal runs of characters other than white space, in order. -/
def words : List Char → List (List Char)
  | [] => []
  | c :: cs =>
    if isBlank c then words cs
    else
      match cs with
      | [] => [[c]]
      | d :: _ =>
        if isBlank d then [c] :: words cs
        else
          match words cs with
          | [] => [[c]]
          | w :: ws => (c :: w) :: ws

/-- The words of a text with one space between neighbours. -/
def collapse (cs : List Char) : List Char :=
  [' '].intercalate (words cs)

namespace Str

/-- The string without white space at either end. -/
def trim (s : String) : String :=
  String.ofList (Text.trim s.toList)

/-- The words of a string with one space between neighbours. -/
def collapse (s : String) : String :=
  String.ofList (Text.collapse s.toList)

/-- A string of nothing but white space, the empty string included. -/
def isBlank (s : String) : Bool :=
  s.toList.all Text.isBlank

end Str

end AgentPipeline.Text
