import AgentPipeline.Condition.Tree
import AgentPipeline.Condition.Token

/-!
# Reading conditions

The grammar of conditions, from the loosest operator to the tightest:

```text
OR      := AND ('||' AND)*
AND     := UNARY ('&&' UNARY)*
UNARY   := '!' UNARY | '(' OR ')' | LITERAL
```

Both binary operators nest to the left, and parentheses leave no trace in the tree.

Each function below reads one level of the grammar from the front of a token list and
returns the tree with the tokens it leaves. Where an operand is missing, the error names
the operator that demands it; `demand` carries that operator down to the place where the
operand should stand. The fuel is the depth of the calls: a token costs at most four, so
`Condition.parse` starts with enough for every input.

## Main definitions

* `Condition.parse`: the condition that a text spells.
-/

namespace AgentPipeline.Condition

/-- What a reader returns: a tree and the tokens behind it. -/
abbrev Parsed := Except ConditionError (Condition × List Token)

/-- The error for an operand that is missing at the end of the text. -/
def missingAtEnd : Option Token → ConditionError
  | some op => .missingOperand op.kind.text op.position
  | none => .empty

/-- The error for an operand that is missing in front of a closing parenthesis. -/
def missingAtParen (demand : Option Token) (paren : Token) : ConditionError :=
  match demand with
  | some op => .missingOperand op.kind.text op.position
  | none => .unexpectedClosingParen paren.position

/-- What has to follow the condition inside a pair of parentheses. -/
def closeParen (opening : Token) : Condition × List Token → Parsed
  | (_, []) => .error (.missingClosingParen opening.position)
  | (inner, token :: rest) =>
    match token.kind with
    | .closeParen => .ok (inner, rest)
    | kind => .error (.unexpectedToken kind.text token.position)

mutual

/-- Read a condition. -/
def parseOr (demand : Option Token) : Nat → List Token → Parsed
  | 0, _ => .error .empty
  | fuel + 1, tokens => do
    let (left, rest) ← parseAnd demand fuel tokens
    parseOrTail left fuel rest

/-- Read on behind the left operand of a possible `||`. -/
def parseOrTail (left : Condition) : Nat → List Token → Parsed
  | 0, _ => .error .empty
  | _ + 1, [] => .ok (left, [])
  | fuel + 1, token :: rest =>
    if token.kind = .or then do
      let (right, rest) ← parseAnd (some token) fuel rest
      parseOrTail (.or left right) fuel rest
    else .ok (left, token :: rest)

/-- Read an operand of `||`. -/
def parseAnd (demand : Option Token) : Nat → List Token → Parsed
  | 0, _ => .error .empty
  | fuel + 1, tokens => do
    let (left, rest) ← parseUnary demand fuel tokens
    parseAndTail left fuel rest

/-- Read on behind the left operand of a possible `&&`. -/
def parseAndTail (left : Condition) : Nat → List Token → Parsed
  | 0, _ => .error .empty
  | _ + 1, [] => .ok (left, [])
  | fuel + 1, token :: rest =>
    if token.kind = .and then do
      let (right, rest) ← parseUnary (some token) fuel rest
      parseAndTail (.and left right) fuel rest
    else .ok (left, token :: rest)

/-- Read an operand of `&&`. -/
def parseUnary (demand : Option Token) : Nat → List Token → Parsed
  | 0, _ => .error .empty
  | _ + 1, [] => .error (missingAtEnd demand)
  | fuel + 1, token :: rest =>
    match token.kind with
    | .literal text => .ok (leaf text, rest)
    | .not => do
      let (child, rest) ← parseUnary (some token) fuel rest
      pure (.not child, rest)
    | .openParen => do
      let inner ← parseOr none fuel rest
      closeParen token inner
    | .closeParen => .error (missingAtParen demand token)
    | .and => .error (.missingOperand token.kind.text token.position)
    | .or => .error (.missingOperand token.kind.text token.position)

end

/-- The error for a token behind a complete condition. -/
def leftover (token : Token) : ConditionError :=
  match token.kind with
  | .closeParen => .unexpectedClosingParen token.position
  | kind => .unexpectedToken kind.text token.position

/-- The condition that a list of tokens spells. -/
def parseTokens (tokens : List Token) : Except ConditionError Condition := do
  match ← parseOr none (4 * tokens.length + 4) tokens with
  | (condition, []) => pure condition
  | (_, token :: _) => .error (leftover token)

/-- The condition that a text spells. -/
def parse (text : String) : Except ConditionError Condition :=
  if Text.Str.isBlank text then .error .empty
  else do parseTokens (← Token.scan text.toList)

end AgentPipeline.Condition
