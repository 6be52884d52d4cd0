import AgentPipeline.Proofs.Condition.Grammar

/-!
# Where reading fails

The readers of conditions fail at the first token that does not fit. `Stops level demand tokens e`
says so without an algorithm: in front of the token stand only operators and parentheses that wait
for an operand, and sentences that are complete. This is what the readers do, in both directions
(`parseTokens_eq_error_iff`), so the error of a text that is no condition can be read off its
tokens.

The error for an operand that is missing at the end depends on the token in front of it. If that is
a `(`, or if there is none, it is the error for an empty text. `parseTokens_eq_empty_iff` says when:
what is missing are only an operand and some closing parentheses.
-/

namespace AgentPipeline

namespace Condition

variable {demand : Option Token} {tokens taken rest : List Token} {token next : Token}
  {e : ConditionError} {t : Condition} {fuel : Nat} {level : Precedence}

/-! ### Failures -/

/-- **Stops**: the reader of a level stops at some token, or at the end, with this error. -/
inductive Stops : Precedence → Option Token → List Token → ConditionError → Prop
  | atEnd {demand : Option Token} : Stops .unary demand [] (missingAtEnd demand)
  | atParen {demand : Option Token} {token : Token} {rest : List Token} :
      token.kind = .closeParen → Stops .unary demand (token :: rest) (missingAtParen demand token)
  | atOperator {demand : Option Token} {token : Token} {rest : List Token} :
      token.kind = .and ∨ token.kind = .or →
      Stops .unary demand (token :: rest) (.missingOperand token.kind.text token.position)
  | not {demand : Option Token} {token : Token} {rest : List Token} {e : ConditionError} :
      token.kind = .not → Stops .unary (some token) rest e → Stops .unary demand (token :: rest) e
  | inner {demand : Option Token} {token : Token} {rest : List Token} {e : ConditionError} :
      token.kind = .openParen → Stops .or none rest e → Stops .unary demand (token :: rest) e
  | unclosed {demand : Option Token} {token : Token} {taken : List Token} {t : Condition} :
      token.kind = .openParen → Derives .or (Token.kinds taken) t →
      Stops .unary demand (token :: taken) (.missingClosingParen token.position)
  | misplaced {demand : Option Token} {token next : Token} {taken rest : List Token}
      {t : Condition} :
      token.kind = .openParen → Derives .or (Token.kinds taken) t → next.kind ≠ .closeParen →
      next.kind ≠ .and → next.kind ≠ .or →
      Stops .unary demand (token :: (taken ++ next :: rest))
        (.unexpectedToken next.kind.text next.position)
  | unary {demand : Option Token} {tokens : List Token} {e : ConditionError} :
      Stops .unary demand tokens e → Stops .and demand tokens e
  | and {demand : Option Token} {taken rest : List Token} {op : Token} {t : Condition}
      {e : ConditionError} :
      Derives .and (Token.kinds taken) t → op.kind = .and → Stops .unary (some op) rest e →
      Stops .and demand (taken ++ op :: rest) e
  | conjunct {demand : Option Token} {tokens : List Token} {e : ConditionError} :
      Stops .and demand tokens e → Stops .or demand tokens e
  | or {demand : Option Token} {taken rest : List Token} {op : Token} {t : Condition}
      {e : ConditionError} :
      Derives .or (Token.kinds taken) t → op.kind = .or → Stops .and (some op) rest e →
      Stops .or demand (taken ++ op :: rest) e

/-! ### What the readers leave -/

/-- The loop of conjuncts ends in front of something else than `&&`. -/
theorem endsConjuncts_of_parseAndTail {left : Condition}
    (h : parseAndTail left fuel tokens = .ok (t, rest)) : EndsConjuncts rest := by
  induction fuel generalizing left tokens with
  | zero => cases h
  | succ fuel ih =>
      cases tokens with
      | nil =>
          obtain ⟨-, rfl⟩ := Prod.mk.inj (Except.ok.inj h)
          exact endsConjuncts_nil
      | cons token tokens =>
          rw [parseAndTail] at h
          split at h
          · obtain ⟨r, -, h⟩ := bind_eq_ok_iff.mp h
            exact ih h
          · next hne =>
            obtain ⟨-, rfl⟩ := Prod.mk.inj (Except.ok.inj h)
            exact endsConjuncts_cons hne

/-- The reader of conjuncts ends in front of something else than `&&`. -/
theorem endsConjuncts_of_parseAnd (h : parseAnd demand fuel tokens = .ok (t, rest)) :
    EndsConjuncts rest := by
  cases fuel with
  | zero => cases h
  | succ fuel =>
      obtain ⟨r, -, h⟩ := bind_eq_ok_iff.mp h
      exact endsConjuncts_of_parseAndTail h

/-- The tokens start with neither of the binary operators. -/
def EndsDisjuncts (rest : List Token) : Prop :=
  ∀ token ∈ rest.head?, token.kind ≠ .and ∧ token.kind ≠ .or

/-- The end of the tokens is no binary operator. -/
theorem endsDisjuncts_nil : EndsDisjuncts [] := nofun

/-- Another token in front is no binary operator. -/
theorem endsDisjuncts_cons (hand : token.kind ≠ .and) (hor : token.kind ≠ .or) :
    EndsDisjuncts (token :: rest) := by
  rintro _ ⟨⟩
  exact ⟨hand, hor⟩

/-- The loop of disjuncts ends in front of something else than a binary operator. -/
theorem endsDisjuncts_of_parseOrTail {left : Condition} (hends : EndsConjuncts tokens)
    (h : parseOrTail left fuel tokens = .ok (t, rest)) : EndsDisjuncts rest := by
  induction fuel generalizing left tokens with
  | zero => cases h
  | succ fuel ih =>
      cases tokens with
      | nil =>
          obtain ⟨-, rfl⟩ := Prod.mk.inj (Except.ok.inj h)
          exact endsDisjuncts_nil
      | cons token tokens =>
          rw [parseOrTail] at h
          split at h
          · obtain ⟨r, hright, h⟩ := bind_eq_ok_iff.mp h
            exact ih (endsConjuncts_of_parseAnd hright) h
          · next hne =>
            obtain ⟨-, rfl⟩ := Prod.mk.inj (Except.ok.inj h)
            exact endsDisjuncts_cons (hends token rfl) hne

/-- The reader of disjuncts ends in front of something else than a binary operator. -/
theorem endsDisjuncts_of_parseOr (h : parseOr demand fuel tokens = .ok (t, rest)) :
    EndsDisjuncts rest := by
  cases fuel with
  | zero => cases h
  | succ fuel =>
      obtain ⟨r, hfirst, h⟩ := bind_eq_ok_iff.mp h
      exact endsDisjuncts_of_parseOrTail (endsConjuncts_of_parseAnd hfirst) h

/-! ### Readers that fail -/

/-- The loop of a level fails behind some more operands. -/
def StopsBehind (level operand : Precedence) (kind : TokenKind) (before : List TokenKind)
    (tokens : List Token) (e : ConditionError) : Prop :=
  ∃ taken op rest t, tokens = taken ++ op :: rest ∧ op.kind = kind ∧
    Derives level (before ++ Token.kinds taken) t ∧ Stops operand (some op) rest e

/-- With enough fuel, the error of each reader is that of the token it stops at. -/
structure FailsSound (fuel : Nat) : Prop where
  or : ∀ {demand tokens e}, 3 * tokens.length + 3 ≤ fuel →
    parseOr demand fuel tokens = .error e → Stops .or demand tokens e
  orTail : ∀ {left before tokens e}, Derives .or before left → 3 * tokens.length + 1 ≤ fuel →
    parseOrTail left fuel tokens = .error e → StopsBehind .or .and .or before tokens e
  and : ∀ {demand tokens e}, 3 * tokens.length + 2 ≤ fuel →
    parseAnd demand fuel tokens = .error e → Stops .and demand tokens e
  andTail : ∀ {left before tokens e}, Derives .and before left → 3 * tokens.length + 1 ≤ fuel →
    parseAndTail left fuel tokens = .error e → StopsBehind .and .unary .and before tokens e
  unary : ∀ {demand tokens e}, 3 * tokens.length + 1 ≤ fuel →
    parseUnary demand fuel tokens = .error e → Stops .unary demand tokens e

namespace FailsSound

/-- The reader of disjuncts fails where its first conjunct or its loop does. -/
theorem or_succ (h : FailsSound fuel) (hfuel : 3 * tokens.length + 3 ≤ fuel + 1)
    (hr : parseOr demand (fuel + 1) tokens = .error e) : Stops .or demand tokens e := by
  rw [parseOr, bind_eq_error_iff] at hr
  rcases hr with hfirst | ⟨⟨first, rest⟩, hfirst, htail⟩
  · exact .conjunct (h.and (by omega) hfirst)
  · obtain ⟨taken, rfl, hd⟩ := (sound fuel).and hfirst
    simp only [List.length_append] at hfuel
    obtain ⟨more, op, rest', t, rfl, hop, hd', hstops⟩ := h.orTail (.conjunct hd) (by omega) htail
    rw [← List.append_assoc]
    exact .or (by simpa using hd') hop hstops

/-- The reader of conjuncts fails where its first operand or its loop does. -/
theorem and_succ (h : FailsSound fuel) (hfuel : 3 * tokens.length + 2 ≤ fuel + 1)
    (hr : parseAnd demand (fuel + 1) tokens = .error e) : Stops .and demand tokens e := by
  rw [parseAnd, bind_eq_error_iff] at hr
  rcases hr with hfirst | ⟨⟨first, rest⟩, hfirst, htail⟩
  · exact .unary (h.unary (by omega) hfirst)
  · obtain ⟨taken, rfl, hd⟩ := (sound fuel).unary hfirst
    simp only [List.length_append] at hfuel
    obtain ⟨more, op, rest', t, rfl, hop, hd', hstops⟩ := h.andTail (.unary hd) (by omega) htail
    rw [← List.append_assoc]
    exact .and (by simpa using hd') hop hstops

/-- The loop of disjuncts fails behind a `||`, in front of which stands what has been read. -/
theorem orTail_succ {left : Condition} {before : List TokenKind} (h : FailsSound fuel)
    (hd : Derives .or before left) (hfuel : 3 * tokens.length + 1 ≤ fuel + 1)
    (hr : parseOrTail left (fuel + 1) tokens = .error e) :
    StopsBehind .or .and .or before tokens e := by
  cases tokens with
  | nil => cases hr
  | cons token rest =>
      rw [List.length_cons] at hfuel
      rw [parseOrTail] at hr
      split at hr
      · next hop =>
        rcases bind_eq_error_iff.mp hr with hright | ⟨⟨right, rest'⟩, hright, htail⟩
        · exact ⟨[], token, rest, left, rfl, hop, by simpa using hd, h.and (by omega) hright⟩
        · obtain ⟨taken, rfl, hd'⟩ := (sound fuel).and hright
          simp only [List.length_append] at hfuel
          obtain ⟨more, op, behind, t, rfl, hop', hd'', hstops⟩ :=
            h.orTail (.or hd hd') (by omega) htail
          exact ⟨token :: (taken ++ more), op, behind, t, by simp, hop',
            by simpa [hop] using hd'', hstops⟩
      · cases hr

/-- The loop of conjuncts fails behind a `&&`, in front of which stands what has been read. -/
theorem andTail_succ {left : Condition} {before : List TokenKind} (h : FailsSound fuel)
    (hd : Derives .and before left) (hfuel : 3 * tokens.length + 1 ≤ fuel + 1)
    (hr : parseAndTail left (fuel + 1) tokens = .error e) :
    StopsBehind .and .unary .and before tokens e := by
  cases tokens with
  | nil => cases hr
  | cons token rest =>
      rw [List.length_cons] at hfuel
      rw [parseAndTail] at hr
      split at hr
      · next hop =>
        rcases bind_eq_error_iff.mp hr with hright | ⟨⟨right, rest'⟩, hright, htail⟩
        · exact ⟨[], token, rest, left, rfl, hop, by simpa using hd, h.unary (by omega) hright⟩
        · obtain ⟨taken, rfl, hd'⟩ := (sound fuel).unary hright
          simp only [List.length_append] at hfuel
          obtain ⟨more, op, behind, t, rfl, hop', hd'', hstops⟩ :=
            h.andTail (.and hd hd') (by omega) htail
          exact ⟨token :: (taken ++ more), op, behind, t, by simp, hop',
            by simpa [hop] using hd'', hstops⟩
      · cases hr

/-- The reader of operands fails behind `!` and parentheses, or at a token that starts no operand.
-/
theorem unary_succ (h : FailsSound fuel) (hfuel : 3 * tokens.length + 1 ≤ fuel + 1)
    (hr : parseUnary demand (fuel + 1) tokens = .error e) : Stops .unary demand tokens e := by
  cases tokens with
  | nil =>
      obtain rfl : missingAtEnd demand = e := Except.error.inj hr
      -- the first token decides: a literal is no error, `!` and `(` hand on or add one, others are
      -- one
      exact .atEnd
  | cons token rest =>
      rw [List.length_cons] at hfuel
      rw [parseUnary] at hr
      split at hr
      · cases hr
      · next hkind =>
        rcases bind_eq_error_iff.mp hr with hchild | ⟨r, -, hr⟩
        · exact .not hkind (h.unary (by omega) hchild)
        · cases hr
      · next hkind =>
        rcases bind_eq_error_iff.mp hr with hinner | ⟨⟨t, behind⟩, hinner, hclose⟩
        · exact .inner hkind (h.or (by omega) hinner)
        -- the condition inside was read, so the error is about what closes it
        · obtain ⟨taken, rfl, hd⟩ := (sound fuel).or hinner
          have hends := endsDisjuncts_of_parseOr hinner
          rw [List.nil_append] at hd
          cases behind with
          | nil =>
              obtain rfl := Except.error.inj hclose
              rw [List.append_nil]
              exact .unclosed hkind hd
          | cons next behind =>
              rw [closeParen] at hclose
              split at hclose
              · cases hclose
              · next hne =>
                obtain rfl := Except.error.inj hclose
                exact .misplaced hkind hd hne (hends next rfl).1 (hends next rfl).2
      · next hkind =>
        obtain rfl := Except.error.inj hr
        exact .atParen hkind
      · next hkind =>
        obtain rfl := Except.error.inj hr
        exact .atOperator (.inl hkind)
      · next hkind =>
        obtain rfl := Except.error.inj hr
        exact .atOperator (.inr hkind)

end FailsSound

/-- **Soundness of errors**, by induction on the fuel. -/
theorem failsSound (fuel : Nat) : FailsSound fuel := by
  induction fuel with
  | zero => constructor <;> intros <;> omega
  | succ fuel ih =>
      exact ⟨ih.or_succ, ih.orTail_succ, ih.and_succ, ih.andTail_succ, ih.unary_succ⟩

/-! ### Failures that are found -/

/-- The reader of a level, with fuel above what is enough for its own calls. -/
def readLevel (level : Precedence) (demand : Option Token) (fuel : Nat) (tokens : List Token) :
    Parsed :=
  match level with
  | .or => parseOr demand (fuel + 2) tokens
  | .and => parseAnd demand (fuel + 1) tokens
  | _ => parseUnary demand fuel tokens

/-- A condition in front of a token that is no binary operator, or of the end, is read as a
whole. -/
theorem parseOr_eq (hd : Derives .or (Token.kinds taken) t) (hends : EndsDisjuncts rest)
    (hfuel : Enough fuel (taken ++ rest)) :
    parseOr demand (fuel + 2) (taken ++ rest) = .ok (t, rest) := by
  have hconjuncts : EndsConjuncts rest := fun token htoken => (hends token htoken).1
  obtain ⟨fuel', hfuel', hread⟩ := hd.readsOn demand fuel taken rest rfl hconjuncts hfuel
  rw [hread]
  cases rest with
  | nil =>
      obtain ⟨n, rfl⟩ := hfuel'.exists_succ
      rw [parseOrTail]
  | cons token rest => exact parseOrTail_of_ne (hends token rfl).2 hfuel'

/-- An operand in parentheses is a disjunction with the closing parenthesis behind it. -/
theorem parseUnary_openParen (hkind : token.kind = .openParen) :
    parseUnary demand (fuel + 1) (token :: rest) = parseOr none fuel rest >>= closeParen token := by
  rw [parseUnary]
  simp only [hkind]

/-- Where another token stands in place of a closing parenthesis, that token is not expected. -/
theorem closeParen_of_ne (hclose : next.kind ≠ .closeParen) :
    closeParen token (t, next :: rest) =
      .error (.unexpectedToken next.kind.text next.position) := by
  rw [closeParen]
  split
  · next h => exact absurd h hclose
  · rfl

/-- **Completeness of errors**, by induction on where the reader stops. -/
theorem Stops.readLevel_eq (h : Stops level demand tokens e) (hfuel : Enough fuel tokens) :
    readLevel level demand fuel tokens = .error e := by
  -- by the place where the reader stops; what is read before it takes some of the fuel
  induction h generalizing fuel with
  | atEnd =>
      obtain ⟨n, rfl⟩ := hfuel.exists_succ
      rfl
  | atParen hkind =>
      obtain ⟨n, rfl⟩ := hfuel.exists_succ
      simp [readLevel, parseUnary, hkind]
  | atOperator hkind =>
      obtain ⟨n, rfl⟩ := hfuel.exists_succ
      rcases hkind with hkind | hkind <;> simp [readLevel, parseUnary, hkind]
  | not hkind _ ih =>
      obtain ⟨n, rfl, hn⟩ := hfuel.cons
      have hchild := ih (hn.mono (Nat.le_add_right n 2))
      simp only [readLevel] at hchild ⊢
      simp [parseUnary, hkind, hchild]
  | inner hkind _ ih =>
      obtain ⟨n, rfl, hn⟩ := hfuel.cons
      have hinner : parseOr none (n + 2) _ = _ := ih hn
      change parseUnary _ (n + 3) _ = _
      rw [parseUnary_openParen hkind, hinner]
      rfl
  | @unclosed demand token taken t hkind hd =>
      obtain ⟨n, rfl, hn⟩ := hfuel.cons
      rw [← List.append_nil taken] at hn ⊢
      change parseUnary _ (n + 3) _ = _
      rw [parseUnary_openParen hkind, parseOr_eq hd endsDisjuncts_nil hn]
      rfl
  | @misplaced demand token next taken rest t hkind hd hclose hand hor =>
      obtain ⟨n, rfl, hn⟩ := hfuel.cons
      change parseUnary _ (n + 3) _ = _
      rw [parseUnary_openParen hkind, parseOr_eq hd (endsDisjuncts_cons hand hor) hn, ok_bind,
        closeParen_of_ne hclose]
  | unary _ ih =>
      have hfirst := ih hfuel
      simp only [readLevel] at hfirst ⊢
      rw [parseAnd, hfirst]
      rfl
  | @and demand taken rest op t e hd hop _ ih =>
      -- the left operand is read to its end, and the error is that of the right one
      obtain ⟨fuel', hfuel', hread⟩ := hd.readsOn demand fuel taken (op :: rest) rfl hfuel
      obtain ⟨n, rfl, hn⟩ := hfuel'.cons
      have hnext := ih (hn.mono (Nat.le_add_right n 2))
      simp only [readLevel] at hnext ⊢
      rw [hread, parseAndTail, if_pos hop, hnext]
      rfl
  | conjunct _ ih =>
      have hfirst := ih hfuel
      simp only [readLevel] at hfirst ⊢
      rw [parseOr, hfirst]
      rfl
  | @or demand taken rest op t e hd hop _ ih =>
      -- here the left operand may be a conjunction, which ends at `||`
      have hne : op.kind ≠ .and := by simp [hop]
      obtain ⟨fuel', hfuel', hread⟩ :=
        hd.readsOn demand fuel taken (op :: rest) rfl (endsConjuncts_cons hne) hfuel
      obtain ⟨n, rfl, hn⟩ := hfuel'.cons
      have hnext := ih (hn.mono (Nat.le_add_right n 1))
      simp only [readLevel] at hnext ⊢
      rw [hread, parseOrTail, if_pos hop, hnext]
      rfl

/-! ### The error of a list of tokens -/

/-- A condition that is complete with a token behind it that does not continue it. -/
def LeavesToken (tokens : List Token) (e : ConditionError) : Prop :=
  ∃ taken token rest t, tokens = taken ++ token :: rest ∧ Derives .or (Token.kinds taken) t ∧
    token.kind ≠ .and ∧ token.kind ≠ .or ∧ e = leftover token

/-- **The error of a list of tokens** is that of the token the reader stops at, or of the token
that is left behind a condition. -/
theorem parseTokens_eq_error_iff :
    parseTokens tokens = .error e ↔ Stops .or none tokens e ∨ LeavesToken tokens e := by
  constructor
  · intro h
    rcases bind_eq_error_iff.mp h with hread | ⟨⟨t, rest⟩, hread, hrest⟩
    · exact .inl ((failsSound _).or (by omega) hread)
    · obtain ⟨taken, rfl, hd⟩ := (sound _).or hread
      cases rest with
      | nil => cases hrest
      | cons token rest =>
          obtain ⟨hand, hor⟩ := endsDisjuncts_of_parseOr hread token rfl
          exact .inr ⟨taken, token, rest, t, rfl, hd, hand, hor, (Except.error.inj hrest).symm⟩
  · have hfuel : Enough (4 * tokens.length + 2) tokens := by
      unfold Enough
      omega
    rintro (hstops | ⟨taken, token, rest, t, rfl, hd, hand, hor, rfl⟩)
    · have hread : parseOr none (4 * tokens.length + 4) tokens = .error e :=
        hstops.readLevel_eq hfuel
      rw [parseTokens, hread]
      rfl
    · rw [parseTokens, parseOr_eq hd (endsDisjuncts_cons hand hor) hfuel]
      rfl

/-! ### Errors without a position -/

/-- What is missing behind some tokens is an operand and some closing parentheses. -/
def LacksOperand (level : Precedence) (kinds : List TokenKind) : Prop :=
  ∀ text, ∃ n t, Derives level (kinds ++ .literal text :: List.replicate n .closeParen) t

/-- The last token is an opening parenthesis. -/
def EndsOpen (tokens : List Token) : Prop :=
  ∃ token ∈ tokens.getLast?, token.kind = .openParen

namespace EndsOpen

/-- Tokens with an open parenthesis at their end are not empty. -/
theorem ne_nil (h : EndsOpen tokens) : tokens ≠ [] := by
  rintro rfl
  obtain ⟨token, hmem, -⟩ := h
  cases hmem

/-- What stands in front does not matter to the end. -/
theorem append (h : EndsOpen tokens) (before : List Token) : EndsOpen (before ++ tokens) := by
  obtain ⟨token, hmem, hkind⟩ := h
  refine ⟨token, ?_, hkind⟩
  rw [List.getLast?_append, hmem]
  rfl

/-- If something is left behind some tokens it is there that the parenthesis stands. -/
theorem of_append (before : List Token) (h : EndsOpen (before ++ tokens)) (hne : tokens ≠ []) :
    EndsOpen tokens := by
  rwa [EndsOpen, List.getLast?_append_of_ne_nil _ hne] at h

/-- A first token of another kind is not the open parenthesis at the end. -/
theorem of_cons (h : EndsOpen (token :: tokens)) (htoken : token.kind ≠ .openParen) :
    EndsOpen tokens := by
  cases tokens with
  | nil =>
      obtain ⟨_, ⟨⟩, hkind⟩ := h
      exact absurd hkind htoken
  | cons => exact h.of_append [token] (List.cons_ne_nil _ _)

/-- With a last token of another kind the end is not open. -/
theorem not_concat (tokens : List Token) (htoken : token.kind ≠ .openParen) :
    ¬EndsOpen (tokens ++ [token]) := by
  rintro ⟨token', hmem, hkind⟩
  obtain rfl : token = token' := by simpa using hmem
  exact htoken hkind

end EndsOpen

namespace LacksOperand

variable {kinds left : List TokenKind}

/-- An operand that is missing is a conjunct that is missing. -/
theorem unary (h : LacksOperand .unary kinds) : LacksOperand .and kinds := fun text => by
  obtain ⟨n, t, hd⟩ := h text
  exact ⟨n, t, .unary hd⟩

/-- A conjunct that is missing is a disjunct that is missing. -/
theorem conjunct (h : LacksOperand .and kinds) : LacksOperand .or kinds := fun text => by
  obtain ⟨n, t, hd⟩ := h text
  exact ⟨n, t, .conjunct hd⟩

/-- Behind a `!` an operand may be missing. -/
theorem not (h : LacksOperand .unary kinds) : LacksOperand .unary (.not :: kinds) := fun text => by
  obtain ⟨n, t, hd⟩ := h text
  exact ⟨n, .not t, .not hd⟩

/-- Behind a `&&` an operand may be missing. -/
theorem and (hd : Derives .and left t) (h : LacksOperand .unary kinds) :
    LacksOperand .and (left ++ .and :: kinds) := fun text => by
  obtain ⟨n, t', hd'⟩ := h text
  exact ⟨n, .and t t', by simpa using Derives.and hd hd'⟩

/-- Behind a `||` a conjunct may be missing. -/
theorem or (hd : Derives .or left t) (h : LacksOperand .and kinds) :
    LacksOperand .or (left ++ .or :: kinds) := fun text => by
  obtain ⟨n, t', hd'⟩ := h text
  exact ⟨n, .or t t', by simpa using Derives.or hd hd'⟩

/-- One more parenthesis is open, and has to be closed. -/
theorem paren (h : LacksOperand .or kinds) : LacksOperand .unary (.openParen :: kinds) :=
  fun text => by
    obtain ⟨n, t, hd⟩ := h text
    refine ⟨n + 1, t, ?_⟩
    rw [List.replicate_succ']
    simpa using Derives.primary (.paren hd)

/-- Behind a parenthesis the operand itself is missing. -/
theorem openParen : LacksOperand .unary [.openParen] :=
  paren fun text => ⟨0, leaf text, .conjunct (.unary (.primary (.literal text)))⟩

end LacksOperand

/-- Where the reader stops with the error for an empty text, there is nothing to read or the last
token is an opening parenthesis. -/
theorem Stops.of_empty (h : Stops level demand tokens .empty) :
    (tokens = [] ∧ demand = none) ∨
      (EndsOpen tokens ∧ LacksOperand level (Token.kinds tokens)) := by
  generalize he : ConditionError.empty = e at h
  induction h with
  | @atEnd demand =>
      cases demand with
      | none => exact .inl ⟨rfl, rfl⟩
      | some op => cases he
  | @atParen demand token rest => cases demand <;> cases he
  | atOperator | unclosed | misplaced => cases he
  | @not demand token rest e hkind _ ih =>
      rcases ih he with ⟨-, hnone⟩ | ⟨hopen, hlacks⟩
      · cases hnone
      · refine .inr ⟨hopen.append [token], ?_⟩
        rw [Token.kinds_cons, hkind]
        exact hlacks.not
  | @inner demand token rest e hkind _ ih =>
      rw [Token.kinds_cons, hkind]
      rcases ih he with ⟨rfl, -⟩ | ⟨hopen, hlacks⟩
      · exact .inr ⟨⟨token, rfl, hkind⟩, .openParen⟩
      · exact .inr ⟨hopen.append [token], hlacks.paren⟩
  | unary _ ih => exact (ih he).imp_right fun ⟨hopen, hlacks⟩ => ⟨hopen, hlacks.unary⟩
  | conjunct _ ih => exact (ih he).imp_right fun ⟨hopen, hlacks⟩ => ⟨hopen, hlacks.conjunct⟩
  | @and demand taken rest op t e hd hop _ ih =>
      rcases ih he with ⟨-, hnone⟩ | ⟨hopen, hlacks⟩
      · cases hnone
      · rw [Token.kinds_append, Token.kinds_cons, hop]
        exact .inr ⟨(hopen.append [op]).append taken, hlacks.and hd⟩
  | @or demand taken rest op t e hd hop _ ih =>
      rcases ih he with ⟨-, hnone⟩ | ⟨hopen, hlacks⟩
      · cases hnone
      · rw [Token.kinds_append, Token.kinds_cons, hop]
        exact .inr ⟨(hopen.append [op]).append taken, hlacks.or hd⟩

/-- The reader of each level; a primary condition is read as an operand of `!`. -/
def Precedence.reader : Precedence → Precedence
  | .primary => .unary
  | level => level

/-- Where tokens are the start of a chain of two operands, they are the start of the left one, or
reach into the right one. -/
theorem prefix_cases {left right behind : List TokenKind} {kind : TokenKind}
    (h : left ++ kind :: right = Token.kinds tokens ++ behind) :
    (∃ more, left = Token.kinds tokens ++ more) ∨
      ∃ taken op rest, tokens = taken ++ op :: rest ∧ Token.kinds taken = left ∧
        op.kind = kind ∧ right = Token.kinds rest ++ behind := by
  rcases List.append_eq_append_iff.mp h with ⟨more, htokens, hrest⟩ | ⟨more, hleft, -⟩
  · cases more with
    | nil => exact .inl ⟨[], by simpa using htokens.symm⟩
    | cons kind' more =>
        obtain ⟨rfl, rfl⟩ := List.cons.inj hrest
        obtain ⟨taken, rest, rfl, rfl, hmore⟩ := kinds_eq_append htokens
        obtain ⟨op, rest, rfl, rfl, rfl⟩ := kinds_eq_cons hmore
        exact .inr ⟨taken, op, rest, rfl, rfl, rfl, rfl⟩
  · exact .inl ⟨more, hleft⟩

/-- The start of a sentence that ends with an opening parenthesis is where the reader stops with the
error for an empty text, by induction on the derivation. -/
theorem Derives.stops_of_endsOpen {kinds behind : List TokenKind} (h : Derives level kinds t)
    (hkinds : kinds = Token.kinds tokens ++ behind) (hopen : EndsOpen tokens) :
    Stops level.reader demand tokens .empty := by
  induction h generalizing tokens behind demand with
  -- a sentence ends with a literal or a closing parenthesis, and so does not end open
  | literal text =>
      obtain ⟨token, rest, rfl⟩ := List.exists_cons_of_ne_nil hopen.ne_nil
      obtain ⟨htoken, hrest⟩ := List.cons.inj hkinds
      obtain ⟨hrest, -⟩ := List.append_eq_nil_iff.mp hrest.symm
      obtain rfl : rest = [] := List.map_eq_nil_iff.mp hrest
      exact absurd hopen (EndsOpen.not_concat [] (by simp [← htoken]))
  | @paren kinds t _ ih =>
      obtain ⟨token, rest, rfl⟩ := List.exists_cons_of_ne_nil hopen.ne_nil
      obtain ⟨htoken, hrest⟩ := List.cons.inj hkinds
      refine .inner htoken.symm ?_
      -- the tokens end inside of the parentheses, or behind the whole of them
      rcases prefix_cases hrest with ⟨more, hinner⟩ | ⟨taken, op, rest, rfl, -, hop, hnil⟩
      · by_cases hne : rest = []
        · subst hne
          exact .conjunct (.unary .atEnd)
        · exact ih hinner (hopen.of_append [token] hne)
      · -- the last token would be the closing parenthesis
        obtain ⟨hnil, -⟩ := List.append_eq_nil_iff.mp hnil.symm
        obtain rfl : rest = [] := List.map_eq_nil_iff.mp hnil
        exact absurd hopen (EndsOpen.not_concat (token :: taken) (by simp [hop]))
  | primary _ ih => exact ih hkinds hopen
  | @not kinds t _ ih =>
      obtain ⟨token, rest, rfl⟩ := List.exists_cons_of_ne_nil hopen.ne_nil
      obtain ⟨htoken, hrest⟩ := List.cons.inj hkinds
      exact .not htoken.symm (ih hrest (hopen.of_cons (by simp [← htoken])))
  | unary _ ih => exact .unary (ih hkinds hopen)
  | conjunct _ ih => exact .conjunct (ih hkinds hopen)
  | and hd _ ihl ihr =>
      -- the tokens end inside of the left operand, or behind the operator
      rcases prefix_cases hkinds with ⟨more, hleft⟩ | ⟨taken, op, rest, rfl, rfl, hop, hright⟩
      · exact ihl hleft hopen
      · have hrest := (hopen.of_append _ (List.cons_ne_nil _ _)).of_cons (by simp [hop])
        exact .and hd hop (ihr hright hrest)
  | or hd _ ihl ihr =>
      rcases prefix_cases hkinds with ⟨more, hleft⟩ | ⟨taken, op, rest, rfl, rfl, hop, hright⟩
      · exact ihl hleft hopen
      · have hrest := (hopen.of_append _ (List.cons_ne_nil _ _)).of_cons (by simp [hop])
        exact .or hd hop (ihr hright hrest)

/-- **The error for an empty text** is that of tokens that lack an operand and closing parentheses
behind a last `(`. -/
theorem parseTokens_eq_empty_iff (hne : tokens ≠ []) :
    parseTokens tokens = .error .empty ↔
      EndsOpen tokens ∧ LacksOperand .or (Token.kinds tokens) := by
  rw [parseTokens_eq_error_iff]
  constructor
  · rintro (hstops | ⟨taken, token, rest, t, -, -, -, -, he⟩)
    · rcases hstops.of_empty with ⟨hnil, -⟩ | h
      · exact absurd hnil hne
      · exact h
    · unfold leftover at he
      split at he <;> cases he
  · rintro ⟨hopen, hlacks⟩
    obtain ⟨n, t, hd⟩ := hlacks ""
    exact .inl (hd.stops_of_endsOpen rfl hopen)

/-! ### Errors about parentheses -/

/-- A parenthesis is blamed for being open where the tokens behind it are a condition, and end. -/
theorem Stops.of_missingClosingParen {p : Nat}
    (h : Stops level demand tokens (.missingClosingParen p)) :
    ∃ before paren taken t, tokens = before ++ paren :: taken ∧ paren.kind = .openParen ∧
      paren.position = p ∧ Derives .or (Token.kinds taken) t := by
  generalize he : ConditionError.missingClosingParen p = e at h
  induction h with
  | @atEnd demand => cases demand <;> cases he
  | @atParen demand => cases demand <;> cases he
  | atOperator | misplaced => cases he
  | @unclosed demand token taken t hkind hd =>
      obtain rfl := ConditionError.missingClosingParen.inj he
      exact ⟨[], token, taken, t, rfl, hkind, rfl, hd⟩
  | @not demand token rest e _ _ ih | @inner demand token rest e _ _ ih =>
      obtain ⟨before, paren, taken, t, rfl, h⟩ := ih he
      exact ⟨token :: before, paren, taken, t, rfl, h⟩
  | unary _ ih | conjunct _ ih => exact ih he
  | @and demand left rest op t e _ _ _ ih | @or demand left rest op t e _ _ _ ih =>
      obtain ⟨before, paren, taken, t, rfl, h⟩ := ih he
      exact ⟨left ++ op :: before, paren, taken, t, by simp, h⟩

/-- A parenthesis is blamed for closing nothing where an operand should stand that no operator
demands: at the start, or behind a `(`. -/
theorem Stops.of_unexpectedClosingParen {p : Nat}
    (h : Stops level demand tokens (.unexpectedClosingParen p)) :
    ∃ before paren rest, tokens = before ++ paren :: rest ∧ paren.kind = .closeParen ∧
      paren.position = p ∧ (before = [] ∧ demand = none ∨ EndsOpen before) := by
  generalize he : ConditionError.unexpectedClosingParen p = e at h
  -- by the place where the reader stops; only a token where an operand should stand counts
  induction h with
  | @atEnd demand => cases demand <;> cases he
  | @atParen demand token rest hkind =>
      cases demand with
      | some op => cases he
      | none =>
          obtain rfl := ConditionError.unexpectedClosingParen.inj he
          exact ⟨[], token, rest, rfl, hkind, rfl, .inl ⟨rfl, rfl⟩⟩
  | atOperator | unclosed | misplaced => cases he
  | @not demand token rest e _ _ ih =>
      obtain ⟨before, paren, rest, rfl, hkind, hp, ⟨-, hnone⟩ | hopen⟩ := ih he
      · cases hnone
      · exact ⟨token :: before, paren, rest, rfl, hkind, hp, .inr (hopen.append [token])⟩
  | @inner demand token rest e htoken _ ih =>
      obtain ⟨before, paren, rest, rfl, hkind, hp, ⟨rfl, -⟩ | hopen⟩ := ih he
      · exact ⟨[token], paren, rest, rfl, hkind, hp, .inr ⟨token, rfl, htoken⟩⟩
      · exact ⟨token :: before, paren, rest, rfl, hkind, hp, .inr (hopen.append [token])⟩
  | unary _ ih | conjunct _ ih => exact ih he
  | @and demand left rest op t e _ _ _ ih | @or demand left rest op t e _ _ _ ih =>
      obtain ⟨before, paren, rest, rfl, hkind, hp, ⟨-, hnone⟩ | hopen⟩ := ih he
      · cases hnone
      · exact ⟨left ++ op :: before, paren, rest, by simp, hkind, hp,
          .inr ((hopen.append [op]).append left)⟩

end Condition

end AgentPipeline
