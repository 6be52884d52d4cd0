import AgentPipeline.Text.Blank
import AgentPipeline.Text.CharClass
import AgentPipeline.Condition.Quotes

/-!
# Tokens of a condition

The text of a condition is a sequence of parentheses, the operators `&&`, `||` and `!`,
and **literals**: stretches of text that the condition language does not look into. A
literal runs up to the next operator or parenthesis outside of it. Two kinds of
parentheses and operators belong to the literal they occur in: those inside quotes, where
a backslash protects the character after it, and those inside the argument list of a
call, that is, inside parentheses that follow a letter, a number or an underscore. The
operator `!=` does not end a literal either.

`Token.scan` cuts a text into tokens. Its recursion is on the characters: `literalSpan`
measures a literal, and the characters it covers are then skipped one by one.

## Main definitions

* `ConditionError`: the ways in which a text fails to be a condition.
* `TokenKind`, `Token`: tokens and where they stand.
* `literalSpan`: the length of the literal at the start of a text.
* `Token.scan`: the tokens of a text.
-/

namespace AgentPipeline

/-- The ways in which a text fails to be a condition. Positions count characters. -/
inductive ConditionError where
  /-- no operand at all -/
  | empty
  /-- the `(` at this position is never closed -/
  | missingClosingParen (position : Nat)
  /-- the `)` at this position closes nothing -/
  | unexpectedClosingParen (position : Nat)
  /-- the operator at this position lacks an operand -/
  | missingOperand (operator : String) (position : Nat)
  /-- the quote at this position is never closed -/
  | unterminatedString (position : Nat)
  /-- the token at this position does not fit -/
  | unexpectedToken (token : String) (position : Nat)
  deriving Repr, DecidableEq, Inhabited

namespace ConditionError

/-- The text of an error. -/
def message : ConditionError → String
  | .empty => "empty expression"
  | .missingClosingParen p =>
    "missing closing parenthesis for '(' at position " ++ toString p
  | .unexpectedClosingParen p => "unexpected ')' at position " ++ toString p
  | .missingOperand op p =>
    "operator '" ++ op ++ "' at position " ++ toString p ++ " is missing an operand"
  | .unterminatedString p =>
    "unterminated string literal starting at position " ++ toString p
  | .unexpectedToken t p => "unexpected '" ++ t ++ "' at position " ++ toString p

/-- The position an error points at. -/
def position : ConditionError → Option Nat
  | .empty => none
  | .missingClosingParen p => some p
  | .unexpectedClosingParen p => some p
  | .missingOperand _ p => some p
  | .unterminatedString p => some p
  | .unexpectedToken _ p => some p

end ConditionError

/-- The kinds of tokens in a condition. -/
inductive TokenKind where
  | literal (text : String)
  | and | or | not | openParen | closeParen
  deriving Repr, DecidableEq, Inhabited

/-- The text of a token. -/
def TokenKind.text : TokenKind → String
  | .literal t => t
  | .and => "&&"
  | .or => "||"
  | .not => "!"
  | .openParen => "("
  | .closeParen => ")"

/-- The operators, which demand an operand on their right. -/
def TokenKind.isOperator : TokenKind → Bool
  | .and => true
  | .or => true
  | .not => true
  | _ => false

/-- A token and the position of its first character. -/
structure Token where
  kind : TokenKind
  position : Nat
  deriving Repr, DecidableEq, Inhabited

namespace Token

/-- The operator or parenthesis at the start of a text, and its width. -/
def symbolAt (c : Char) (next : Option Char) : Option (TokenKind × Nat) :=
  if c = '(' then some (.openParen, 1)
  else if c = ')' then some (.closeParen, 1)
  else if c = '&' ∧ next = some '&' then some (.and, 2)
  else if c = '|' ∧ next = some '|' then some (.or, 2)
  else if c = '!' ∧ next ≠ some '=' then some (.not, 1)
  else none

/-- A parenthesis behind such a character opens the argument list of a call. -/
def precedesCall : Option Char → Bool
  | some c => Text.isAlphanumeric c || c == '_'
  | none => false

/-- The length of the literal at the start of a text, counted on from a state of the
scan: `depth` argument lists are open, the outermost since position `call`; `quotes` is
the state of the quotes, the last of which opened at position `quote`; `previous` is the
last character of the literal so far; `position` is that of the next one. -/
def literalSpan (depth call : Nat) (quotes : Quotes) (quote : Nat) (previous : Option Char)
    (position : Nat) : List Char → Except ConditionError Nat
  | [] =>
    if quotes ≠ .outside then .error (.unterminatedString quote)
    else if depth ≠ 0 then .error (.missingClosingParen call)
    else .ok 0
  | c :: cs =>
    let next := quotes.next c
    if quotes ≠ .outside then
      (· + 1) <$> literalSpan depth call next quote (some c) (position + 1) cs
    else if Quotes.opens c then
      (· + 1) <$> literalSpan depth call next position (some c) (position + 1) cs
    else if depth ≠ 0 then
      let depth := if c = '(' then depth + 1 else if c = ')' then depth - 1 else depth
      (· + 1) <$> literalSpan depth call next quote (some c) (position + 1) cs
    else if c = '(' ∧ precedesCall previous then
      (· + 1) <$> literalSpan 1 position next quote (some c) (position + 1) cs
    else if (symbolAt c cs.head?).isSome then .ok 0
    else (· + 1) <$> literalSpan 0 call next quote (some c) (position + 1) cs

/-- The literal text of a stretch of characters: the stretch without white space at its
ends. -/
def literalText (span : List Char) : String :=
  String.ofList (Text.trim span)

/-- The tokens of a text from a position on, after `skip` characters that belong to the
token before. -/
def scanFrom (skip position : Nat) : List Char → Except ConditionError (List Token)
  | [] => .ok []
  | c :: cs =>
    match skip with
    | skip + 1 => scanFrom skip (position + 1) cs
    | 0 =>
      if Text.isBlank c then scanFrom 0 (position + 1) cs
      else
        match symbolAt c cs.head? with
        | some (kind, width) =>
          (⟨kind, position⟩ :: ·) <$> scanFrom (width - 1) (position + 1) cs
        | none => do
          let length ← literalSpan 0 0 .outside 0 none position (c :: cs)
          let rest ← scanFrom (length - 1) (position + 1) cs
          pure (⟨.literal (literalText ((c :: cs).take length)), position⟩ :: rest)

/-- The tokens of a text. -/
def scan (text : List Char) : Except ConditionError (List Token) :=
  scanFrom 0 0 text

end Token

end AgentPipeline
