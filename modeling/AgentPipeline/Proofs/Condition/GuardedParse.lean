import AgentPipeline.Proofs.Condition.Grammar
import AgentPipeline.Proofs.Condition.GuardedScan

/-!
# Reading by position

The readers of `AgentPipeline.Condition.Parser` take tokens from the front of a list, with fuel for
the depth of their calls. Here are the same readers over all the tokens with a position in them.
They look back at the operator in front of the position instead of being told which one demands an
operand, and they have no fuel: whoever calls a reader goes on only from a position behind the one
where the reader began (`consuming`), and anything else is a fault. It is one too if the reader of
operands comes to a `!`, which the reader of negations should have taken.

The readers by position return what the readers with fuel return (`follows`). So reading never leads
to a fault, neither from tokens (`readTokens_eq`) nor from a text (`reading_faultless`). That the fuel is
enough and that each reader takes a token is shown in one induction, since the fuel that is left
behind an operand depends on the tokens that the operand has taken.
-/

namespace AgentPipeline.Guarded

open Condition

/-! ### The readers -/

/-- What a reader returns: a tree and the position behind its tokens. -/
abbrev Read := Except Halt (Condition × Nat)

/-- What a reader returns, provided that it has taken a token. -/
def consuming (pos : Nat) (r : Read) : Except Halt (Condition × { next : Nat // pos < next }) := do
  let (t, next) ← r
  let next ← advance pos next
  pure (t, next)

/-- The operator in front of a position. -/
def operatorBefore (tokens : List Token) : Nat → Option Token
  | 0 => none
  | pos + 1 => tokens[pos]?.filter (·.kind.isOperator)

/-- What has to follow, at this position, the condition inside a pair of parentheses. -/
def closeAt (tokens : List Token) (opening : Token) (inner : Condition) (pos : Nat) : Read :=
  match tokens[pos]? with
  | none => .error (.error (.missingClosingParen opening.position))
  | some token =>
    match token.kind with
    | .closeParen => pure (inner, pos + 1)
    | kind => .error (.error (.unexpectedToken kind.text token.position))

/-- Where a token stands, there are tokens left. -/
theorem lt_of_getElem? {tokens : List Token} {pos : Nat} {token : Token}
    (h : tokens[pos]? = some token) : pos < tokens.length :=
  (List.getElem?_eq_some_iff.mp h).1

mutual

/-- Read a condition. -/
def readOr (tokens : List Token) (pos : Nat) : Read := do
  let (left, ⟨next, _⟩) ← consuming pos (readAnd tokens pos)
  readOrTail tokens left next
termination_by 4 * (tokens.length - pos) + 3

/-- Read on behind the left operand of a possible `||`. -/
def readOrTail (tokens : List Token) (left : Condition) (pos : Nat) : Read :=
  match _ : tokens[pos]? with
  | none => pure (left, pos)
  | some token =>
    if token.kind = .or then do
      let (right, ⟨next, _⟩) ← consuming (pos + 1) (readAnd tokens (pos + 1))
      readOrTail tokens (.or left right) next
    else pure (left, pos)
termination_by 4 * (tokens.length - pos)
decreasing_by
  all_goals
    have := lt_of_getElem? ‹_›
    omega

/-- Read an operand of `||`. -/
def readAnd (tokens : List Token) (pos : Nat) : Read := do
  let (left, ⟨next, _⟩) ← consuming pos (readUnary tokens pos)
  readAndTail tokens left next
termination_by 4 * (tokens.length - pos) + 2

/-- Read on behind the left operand of a possible `&&`. -/
def readAndTail (tokens : List Token) (left : Condition) (pos : Nat) : Read :=
  match _ : tokens[pos]? with
  | none => pure (left, pos)
  | some token =>
    if token.kind = .and then do
      let (right, ⟨next, _⟩) ← consuming (pos + 1) (readUnary tokens (pos + 1))
      readAndTail tokens (.and left right) next
    else pure (left, pos)
termination_by 4 * (tokens.length - pos)
decreasing_by
  all_goals
    have := lt_of_getElem? ‹_›
    omega

/-- Read an operand of `&&`. -/
def readUnary (tokens : List Token) (pos : Nat) : Read :=
  match _ : tokens[pos]? with
  | some ⟨.not, _⟩ => do
    let (child, ⟨next, _⟩) ← consuming (pos + 1) (readUnary tokens (pos + 1))
    pure (.not child, next)
  | _ => do
    let (t, ⟨next, _⟩) ← consuming pos (readPrimary tokens pos)
    pure (t, next)
termination_by 4 * (tokens.length - pos) + 1
decreasing_by
  · have := lt_of_getElem? ‹_›
    omega
  · omega

/-- Read a literal, or a condition in parentheses. -/
def readPrimary (tokens : List Token) (pos : Nat) : Read :=
  match _ : tokens[pos]? with
  | none => .error (.error (missingAtEnd (operatorBefore tokens pos)))
  | some token =>
    match token.kind with
    | .literal text => pure (leaf text, pos + 1)
    | .openParen => do
      let (inner, ⟨next, _⟩) ← consuming (pos + 1) (readOr tokens (pos + 1))
      closeAt tokens token inner next
    | .and => .error (.error (.missingOperand token.kind.text token.position))
    | .or => .error (.error (.missingOperand token.kind.text token.position))
    | .closeParen => .error (.error (missingAtParen (operatorBefore tokens pos) token))
    | .not => .error (.fault (.unreachable pos))
termination_by 4 * (tokens.length - pos)
decreasing_by
  have := lt_of_getElem? ‹_›
  omega

end

/-- The condition that a list of tokens spells. -/
def readTokens (tokens : List Token) : Except Halt Condition := do
  let (t, ⟨next, _⟩) ← consuming 0 (readOr tokens 0)
  match tokens[next]? with
  | none => pure t
  | some token => .error (.error (leftover token))

/-- The condition that a text spells. -/
def parse (text : String) : Except Halt Condition :=
  if Text.Str.isBlank text then .error (.error .empty)
  else do readTokens (← scan text.toList)

/-! ### Positions and rests -/

variable {tokens : List Token} {pos fuel : Nat} {left : Condition}

/-- What a reader without positions returns, with the position behind its tokens instead of the
tokens that it leaves. -/
def located (tokens : List Token) (r : Parsed) : Read :=
  ((fun p => (p.1, tokens.length - p.2.length)) <$> r).mapError .error

/-- What leaves the tokens from a position on is behind that position. -/
theorem located_ok {t : Condition} (h : pos ≤ tokens.length) :
    located tokens (.ok (t, tokens.drop pos)) = .ok (t, pos) := by
  rw [located, map_ok, List.length_drop, Nat.sub_sub_self h]
  rfl

/-- A reader that fails, or **takes a token**: then it leaves the tokens behind another position. -/
theorem consuming_cases {level : Precedence} (r : Parsed)
    (htakes : ∀ {p}, r = .ok p → Takes level [] (tokens.drop pos) p) :
    (∃ e, r = .error e ∧ consuming pos (located tokens r) = .error (.error e)) ∨
      ∃ t next, ∃ h : pos < next, next ≤ tokens.length ∧ r = .ok (t, tokens.drop next) ∧
        consuming pos (located tokens r) = .ok (t, ⟨next, h⟩) := by
  cases r with
  | error e => exact .inl ⟨e, rfl, rfl⟩
  | ok p =>
      obtain ⟨t, rest⟩ := p
      obtain ⟨taken, hdrop, hderives⟩ := htakes rfl
      have htaken : 0 < taken.length := by
        refine List.length_pos_of_ne_nil ?_
        rintro rfl
        exact hderives.ne_nil rfl
      have hlength := congrArg List.length hdrop
      rw [List.length_append, List.length_drop] at hlength
      have hrest : rest = tokens.drop (pos + taken.length) := by
        rw [← List.drop_drop, hdrop, List.drop_left]
      have hnext : pos < pos + taken.length := Nat.lt_add_of_pos_right htaken
      refine .inr ⟨t, pos + taken.length, hnext, by omega, by rw [hrest], ?_⟩
      rw [hrest, located_ok (by omega), consuming, ok_bind]
      simp only [advance_of_lt hnext, ok_bind]
      rfl

/-- Two readers that follow each other. -/
theorem consuming_bind {level : Precedence} {r : Parsed}
    {k : Condition × { next : Nat // pos < next } → Read} {k' : Condition × List Token → Parsed}
    (htakes : ∀ {p}, r = .ok p → Takes level [] (tokens.drop pos) p)
    (hk : ∀ t next (h : pos < next), next ≤ tokens.length →
      k (t, ⟨next, h⟩) = located tokens (k' (t, tokens.drop next))) :
    consuming pos (located tokens r) >>= k = located tokens (r >>= k') := by
  obtain ⟨e, rfl, hread⟩ | ⟨t, next, hnext, hle, rfl, hread⟩ := consuming_cases r htakes
  · rw [hread]
    rfl
  · rw [hread, ok_bind, ok_bind]
    exact hk t next hnext hle

/-! ### The readers with fuel -/

/-- With this fuel, the readers by position return what the readers with fuel return. Fuel is needed
for the tokens that are left and for the calls that come before the next token is taken. -/
structure Follows (tokens : List Token) (fuel : Nat) : Prop where
  or : ∀ {pos}, 3 * (tokens.length - pos) + 3 ≤ fuel →
    readOr tokens pos =
      located tokens (parseOr (operatorBefore tokens pos) fuel (tokens.drop pos))
  orTail : ∀ {left pos}, pos ≤ tokens.length → 3 * (tokens.length - pos) + 1 ≤ fuel →
    readOrTail tokens left pos = located tokens (parseOrTail left fuel (tokens.drop pos))
  and : ∀ {pos}, 3 * (tokens.length - pos) + 2 ≤ fuel →
    readAnd tokens pos =
      located tokens (parseAnd (operatorBefore tokens pos) fuel (tokens.drop pos))
  andTail : ∀ {left pos}, pos ≤ tokens.length → 3 * (tokens.length - pos) + 1 ≤ fuel →
    readAndTail tokens left pos = located tokens (parseAndTail left fuel (tokens.drop pos))
  unary : ∀ {pos}, 3 * (tokens.length - pos) + 1 ≤ fuel →
    readUnary tokens pos =
      located tokens (parseUnary (operatorBefore tokens pos) fuel (tokens.drop pos))

/-- The token at a position is the first of those from there on. -/
theorem drop_of_getElem? {token : Token} (h : tokens[pos]? = some token) :
    tokens.drop pos = token :: tokens.drop (pos + 1) := by
  obtain ⟨hpos, rfl⟩ := List.getElem?_eq_some_iff.mp h
  exact List.drop_eq_getElem_cons hpos

/-- Where there is no token, none are left. -/
theorem drop_of_getElem?_eq_none (h : tokens[pos]? = none) : tokens.drop pos = [] :=
  List.drop_eq_nil_of_le (List.getElem?_eq_none_iff.mp h)

/-- An operator is the one in front of the next position. -/
theorem operatorBefore_succ {token : Token} (h : tokens[pos]? = some token)
    (hop : token.kind.isOperator = true) : operatorBefore tokens (pos + 1) = some token := by
  rw [operatorBefore, h]
  simp [hop]

/-- Behind a token that is no operator nothing demands an operand. -/
theorem operatorBefore_succ_of_not {token : Token} (h : tokens[pos]? = some token)
    (hop : token.kind.isOperator = false) : operatorBefore tokens (pos + 1) = none := by
  rw [operatorBefore, h]
  simp [hop]

namespace Follows

/-- Conditions are read alike with one more unit of fuel. -/
theorem or_succ (ih : Follows tokens fuel)
    (hfuel : 3 * (tokens.length - pos) + 3 ≤ fuel + 1) :
    readOr tokens pos =
      located tokens (parseOr (operatorBefore tokens pos) (fuel + 1) (tokens.drop pos)) := by
  rw [readOr, ih.and (by omega), parseOr]
  exact consuming_bind (sound fuel).and fun t next hnext hle => ih.orTail hle (by omega)

/-- The loop for `||` goes on alike with one more unit of fuel. -/
theorem orTail_succ (ih : Follows tokens fuel) (hpos : pos ≤ tokens.length)
    (hfuel : 3 * (tokens.length - pos) + 1 ≤ fuel + 1) :
    readOrTail tokens left pos =
      located tokens (parseOrTail left (fuel + 1) (tokens.drop pos)) := by
  rw [readOrTail]
  split
  · next hnone =>
    rw [drop_of_getElem?_eq_none hnone, parseOrTail, ← drop_of_getElem?_eq_none hnone,
      located_ok hpos]
    rfl
  · next token hget =>
    have hlt := lt_of_getElem? hget
    rw [drop_of_getElem? hget, parseOrTail]
    split
    · next hop =>
      have hdemand := operatorBefore_succ hget (by rw [hop]; rfl)
      rw [ih.and (by omega), hdemand]
      exact consuming_bind (sound fuel).and fun t next hnext hle => ih.orTail hle (by omega)
    · rw [← drop_of_getElem? hget, located_ok hpos]
      rfl

/-- Operands of `||` are read alike with one more unit of fuel. -/
theorem and_succ (ih : Follows tokens fuel)
    (hfuel : 3 * (tokens.length - pos) + 2 ≤ fuel + 1) :
    readAnd tokens pos =
      located tokens (parseAnd (operatorBefore tokens pos) (fuel + 1) (tokens.drop pos)) := by
  rw [readAnd, ih.unary (by omega), parseAnd]
  exact consuming_bind (sound fuel).unary fun t next hnext hle => ih.andTail hle (by omega)

/-- The loop for `&&` goes on alike with one more unit of fuel. -/
theorem andTail_succ (ih : Follows tokens fuel) (hpos : pos ≤ tokens.length)
    (hfuel : 3 * (tokens.length - pos) + 1 ≤ fuel + 1) :
    readAndTail tokens left pos =
      located tokens (parseAndTail left (fuel + 1) (tokens.drop pos)) := by
  rw [readAndTail]
  split
  · next hnone =>
    rw [drop_of_getElem?_eq_none hnone, parseAndTail, ← drop_of_getElem?_eq_none hnone,
      located_ok hpos]
    rfl
  · next token hget =>
    have hlt := lt_of_getElem? hget
    rw [drop_of_getElem? hget, parseAndTail]
    split
    · next hop =>
      have hdemand := operatorBefore_succ hget (by rw [hop]; rfl)
      rw [ih.unary (by omega), hdemand]
      exact consuming_bind (sound fuel).unary fun t next hnext hle => ih.andTail hle (by omega)
    · rw [← drop_of_getElem? hget, located_ok hpos]
      rfl

/-- The closing parenthesis is asked for alike. -/
theorem closeAt_eq {opening : Token} {inner : Condition} :
    closeAt tokens opening inner pos =
      located tokens (closeParen opening (inner, tokens.drop pos)) := by
  rw [closeAt]
  cases hget : tokens[pos]? with
  | none =>
      rw [drop_of_getElem?_eq_none hget]
      rfl
  | some token =>
      rw [drop_of_getElem? hget]
      simp only [closeParen]
      cases token.kind with
      | closeParen => exact (located_ok (lt_of_getElem? hget)).symm
      | literal | and | or | not | openParen => rfl

/-- The reader of operands takes what is not a negation. -/
theorem readPrimary_eq (ih : Follows tokens fuel)
    (hfuel : 3 * (tokens.length - pos) + 1 ≤ fuel + 1)
    (hnot : ∀ token, tokens[pos]? = some token → token.kind ≠ .not) :
    readPrimary tokens pos =
      located tokens (parseUnary (operatorBefore tokens pos) (fuel + 1) (tokens.drop pos)) := by
  rw [readPrimary]
  split
  · next hnone =>
    rw [drop_of_getElem?_eq_none hnone, parseUnary]
    rfl
  · next token hget =>
    have hlt := lt_of_getElem? hget
    rw [drop_of_getElem? hget, parseUnary]
    cases hkind : token.kind with
    | literal text => exact (located_ok hlt).symm
    | openParen =>
        have hdemand := operatorBefore_succ_of_not hget (by rw [hkind]; rfl)
        simp only
        rw [ih.or (by omega), hdemand]
        exact consuming_bind (sound fuel).or fun t next hnext hle => closeAt_eq
    | not => exact absurd hkind (hnot token hget)
    | closeParen | and | or => rfl

/-- Operands of `&&` are read alike with one more unit of fuel. -/
theorem unary_succ (ih : Follows tokens fuel)
    (hfuel : 3 * (tokens.length - pos) + 1 ≤ fuel + 1) :
    readUnary tokens pos =
      located tokens (parseUnary (operatorBefore tokens pos) (fuel + 1) (tokens.drop pos)) := by
  rw [readUnary]
  split
  · next position hget =>
    have hlt := lt_of_getElem? hget
    rw [drop_of_getElem? hget, parseUnary, ih.unary (by omega), operatorBefore_succ hget rfl]
    exact consuming_bind (sound fuel).unary fun t next hnext hle => (located_ok hle).symm
  · next hne =>
    have hnot : ∀ token, tokens[pos]? = some token → token.kind ≠ .not := by
      rintro ⟨kind, position⟩ hget rfl
      exact hne position hget
    rw [ih.readPrimary_eq hfuel hnot]
    obtain ⟨e, hr, hread⟩ | ⟨t, next, hnext, hle, hr, hread⟩ :=
      consuming_cases (parseUnary (operatorBefore tokens pos) (fuel + 1) (tokens.drop pos))
        (sound (fuel + 1)).unary
    · rw [hread, hr]
      rfl
    · rw [hread, hr, located_ok hle]
      rfl

end Follows

/-- **The readers by position follow those with fuel**, by induction on the fuel. -/
theorem follows (fuel : Nat) : Follows tokens fuel := by
  induction fuel with
  | zero => constructor <;> intros <;> omega
  | succ fuel ih =>
      exact ⟨ih.or_succ, ih.orTail_succ, ih.and_succ, ih.andTail_succ, ih.unary_succ⟩

/-! ### Progress -/

/-- A reader that succeeds from this position on takes a token. -/
def TakesToken (pos : Nat) (r : Read) : Prop := ∀ t next, r = .ok (t, next) → pos < next

/-- What derives a tree has taken a token, as no sentence is empty. -/
theorem takesToken_located {level : Precedence} {r : Parsed}
    (htakes : ∀ {p}, r = .ok p → Takes level [] (tokens.drop pos) p) :
    TakesToken pos (located tokens r) := by
  intro t next hread
  obtain ⟨e, rfl, -⟩ | ⟨t', next', hnext, hle, rfl, -⟩ := consuming_cases r htakes
  · cases hread
  · rw [located_ok hle] at hread
    cases hread
    exact hnext

/-- Reading a condition takes a token. -/
theorem takesToken_readOr : TakesToken pos (readOr tokens pos) := by
  rw [(follows _).or le_rfl]
  exact takesToken_located (sound _).or

/-- Reading an operand of `||` takes a token. -/
theorem takesToken_readAnd : TakesToken pos (readAnd tokens pos) := by
  rw [(follows _).and le_rfl]
  exact takesToken_located (sound _).and

/-- Reading an operand of `&&` takes a token. -/
theorem takesToken_readUnary : TakesToken pos (readUnary tokens pos) := by
  rw [(follows _).unary le_rfl]
  exact takesToken_located (sound _).unary

/-- Reading a literal or parentheses takes a token. -/
theorem takesToken_readPrimary : TakesToken pos (readPrimary tokens pos) := by
  by_cases hnot : ∃ position, tokens[pos]? = some ⟨.not, position⟩
  · obtain ⟨position, hget⟩ := hnot
    intro t next hread
    rw [readPrimary] at hread
    split at hread
    · cases hread
    · next token htoken =>
      obtain rfl : ⟨.not, position⟩ = token := Option.some.inj (hget.symm.trans htoken)
      cases hread
  · have hne : ∀ token, tokens[pos]? = some token → token.kind ≠ .not := by
      rintro ⟨kind, position⟩ hget rfl
      exact hnot ⟨position, hget⟩
    rw [(follows (3 * (tokens.length - pos))).readPrimary_eq le_rfl hne]
    exact takesToken_located (sound _).unary

/-! ### Texts -/

/-- The readers by position read a list of tokens like the readers with fuel, without a fault. -/
theorem readTokens_eq (tokens : List Token) :
    readTokens tokens = (parseTokens tokens).mapError .error := by
  have hor : readOr tokens 0 = located tokens (parseOr none (4 * tokens.length + 4) tokens) :=
    (follows _).or (by omega)
  have htakes {p} (hp : parseOr none (4 * tokens.length + 4) tokens = .ok p) :
      Takes .or [] (tokens.drop 0) p := (sound _).or hp
  rw [readTokens, hor, parseTokens]
  obtain ⟨e, hr, hread⟩ | ⟨t, next, _, -, hr, hread⟩ :=
    consuming_cases (parseOr none (4 * tokens.length + 4) tokens) htakes
  · rw [hread, hr]
    rfl
  · rw [hread, hr, ok_bind, ok_bind]
    cases hget : tokens[next]? with
    | none =>
        rw [drop_of_getElem?_eq_none hget]
        simp only [hget]
        rfl
    | some token =>
        rw [drop_of_getElem? hget]
        simp only [hget]
        rfl

/-- They read a text like the parser, without a fault. -/
theorem parse_eq (text : String) : parse text = (Condition.parse text).mapError .error := by
  rw [parse, Condition.parse]
  split
  · rfl
  · rw [scan_eq]
    cases Token.scan text.toList with
    | error e => rfl
    | ok tokens => exact readTokens_eq tokens

/-- **No text leads to a fault**: reading by position ends, and returns what reading without
positions returns, a condition or an error. On the way no character is looked at and no stretch is
cut out beside the text, the count of the open parentheses does not go below zero, every round of
the scanner takes a character, and the reader of operands does not come to a `!`. Every reader that
succeeds takes a token, whatever the tokens are. -/
theorem reading_faultless :
    (∀ text : String, parse text = (Condition.parse text).mapError .error) ∧
    ∀ (tokens : List Token) (pos : Nat),
      TakesToken pos (readOr tokens pos) ∧ TakesToken pos (readAnd tokens pos) ∧
      TakesToken pos (readUnary tokens pos) ∧ TakesToken pos (readPrimary tokens pos) :=
  ⟨parse_eq, fun _ _ =>
    ⟨takesToken_readOr, takesToken_readAnd, takesToken_readUnary, takesToken_readPrimary⟩⟩

end AgentPipeline.Guarded
