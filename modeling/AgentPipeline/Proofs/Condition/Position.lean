import AgentPipeline.Proofs.Condition.ErrorKinds

/-!
# Where the errors about conditions point

An error about a condition holds a position, and with it the text or the kind of what stands there.
The error of the reader names one of the tokens, or the operator in front of them that lacks its
operand (`Stops.namesToken`), and every token stands in the text where its position says
(`Scans.standsAt`). The error of the scanner names a quote or the parenthesis of a call, which it
has come across itself. So an error that has a position points at what it names
(`pointsInto_of_parse`).
-/

namespace AgentPipeline

/-- The characters of a word stand in a text behind its first `p` characters. -/
def StandsAt (word text : List Char) (p : Nat) : Prop :=
  ∃ front behind, text = front ++ word ++ behind ∧ front.length = p

/-- A word that is not empty stands within the text. -/
theorem StandsAt.lt_length {word text : List Char} {p : Nat} (h : StandsAt word text p)
    (hne : word ≠ []) : p < text.length := by
  obtain ⟨front, behind, rfl, rfl⟩ := h
  have hpos := List.length_pos_of_ne_nil hne
  simp only [List.length_append]
  omega

/-- A word stands further on with more text in front. -/
theorem StandsAt.append {word text : List Char} {p : Nat} (h : StandsAt word text p)
    (before : List Char) : StandsAt word (before ++ text) (before.length + p) := by
  obtain ⟨front, behind, rfl, rfl⟩ := h
  exact ⟨before ++ front, behind, by simp, List.length_append⟩

/-! ### Tokens stand where they say -/

namespace Token

variable {position : Nat} {c : Char} {cs : List Char} {tokens : List Token} {token : Token}

/-- A symbol is spelled by the characters that it takes. -/
theorem take_of_symbolAt {kind : TokenKind} {width : Nat}
    (h : symbolAt c cs.head? = some (kind, width)) : (c :: cs).take width = kind.text.toList := by
  have hpair {d : Char} (hhead : cs.head? = some d) : (c :: cs).take 2 = [c, d] := by
    obtain ⟨rest, rfl⟩ := List.head?_eq_some_iff.mp hhead
    rfl
  unfold symbolAt at h
  split at h
  · next hc => obtain ⟨rfl, rfl⟩ := h; exact congrArg (· :: []) hc
  split at h
  · next hc => obtain ⟨rfl, rfl⟩ := h; exact congrArg (· :: []) hc
  split at h
  · next hc => obtain ⟨rfl, rfl⟩ := h; rw [hpair hc.2, hc.1]; rfl
  split at h
  · next hc => obtain ⟨rfl, rfl⟩ := h; rw [hpair hc.2, hc.1]; rfl
  split at h
  · next hc => obtain ⟨rfl, rfl⟩ := h; exact congrArg (· :: []) hc.1
  · cases h

/-- A stretch that does not start with white space is its literal text and white space. -/
theorem exists_literalText {lit : List Char} (hhead : ∀ c ∈ lit.head?, Text.isBlank c = false) :
    ∃ back, lit = (literalText lit).toList ++ back ∧ Text.Blanks back := by
  obtain ⟨back, hback, hblanks⟩ := Text.exists_trimEnd (Text.trimStart lit)
  rw [Quotes.trimStart_eq_self hhead] at hback
  refine ⟨back, ?_, hblanks⟩
  rwa [literalText, String.toList_ofList, Text.trim, Quotes.trimStart_eq_self hhead]

/-- **A token stands in the text at its position.** -/
theorem Scans.standsAt (h : Scans position cs tokens) (htoken : token ∈ tokens) :
    ∃ p, token.position = position + p ∧ StandsAt token.kind.text.toList cs p := by
  induction h with
  | nil => cases htoken
  | @blank position c cs tokens _ _ ih =>
      obtain ⟨p, hp, hstands⟩ := ih htoken
      exact ⟨1 + p, by omega, hstands.append [c]⟩
  | @symbol position c cs kind width tokens hsymbol _ ih =>
      have htake := take_of_symbolAt hsymbol
      have hlength := List.length_take_of_le (width_le_of_symbolAt hsymbol)
      rcases List.mem_cons.mp htoken with rfl | htoken
      · refine ⟨0, rfl, [], (c :: cs).drop width, ?_, rfl⟩
        rw [List.nil_append, ← htake, List.take_append_drop]
      · obtain ⟨p, hp, hstands⟩ := ih htoken
        refine ⟨width + p, by omega, ?_⟩
        have happend := hstands.append ((c :: cs).take width)
        rwa [List.take_append_drop, hlength] at happend
  | @literal position lit rest tokens _ hhead _ _ _ ih =>
      rcases List.mem_cons.mp htoken with rfl | htoken
      · obtain ⟨back, hback, -⟩ := exists_literalText hhead
        refine ⟨0, rfl, [], back ++ rest, ?_, rfl⟩
        rw [List.nil_append, ← List.append_assoc]
        exact congrArg (· ++ rest) hback
      · obtain ⟨p, hp, hstands⟩ := ih htoken
        exact ⟨lit.length + p, by omega, hstands.append lit⟩

/-- No token is empty. -/
theorem Scans.text_ne_nil (h : Scans position cs tokens) (htoken : token ∈ tokens) :
    token.kind.text.toList ≠ [] := by
  cases hkind : token.kind with
  | literal text => exact (h.isLiteral (hkind ▸ List.mem_map_of_mem htoken)).ne_nil
  | and | or | not | openParen | closeParen => decide

end Token

/-! ### Tokens that errors name -/

namespace Condition

variable {demand : Option Token} {tokens tokens' : List Token} {token : Token} {e : ConditionError}
  {level : Precedence}

/-- A token is given by its kind and its position. -/
theorem mk_mem {kind : TokenKind} (hkind : token.kind = kind) (hmem : token ∈ tokens) :
    ⟨kind, token.position⟩ ∈ tokens := hkind ▸ hmem

/-- What the error of the reader names is one of these tokens. -/
def NamesToken (tokens : List Token) : ConditionError → Prop
  | .empty => True
  | .missingClosingParen p => ⟨.openParen, p⟩ ∈ tokens
  | .unexpectedClosingParen p => ⟨.closeParen, p⟩ ∈ tokens
  | .missingOperand op p => ∃ kind, kind.isOperator = true ∧ kind.text = op ∧ ⟨kind, p⟩ ∈ tokens
  | .unterminatedString _ => False
  | .unexpectedToken text p => ∃ kind, kind.text = text ∧ ⟨kind, p⟩ ∈ tokens

/-- What names one of some tokens names one of more tokens. -/
theorem NamesToken.mono (h : NamesToken tokens e) (hsubset : tokens ⊆ tokens') :
    NamesToken tokens' e := by
  cases e with
  | empty => trivial
  | missingClosingParen | unexpectedClosingParen => exact hsubset h
  | missingOperand =>
      obtain ⟨kind, hop, htext, hmem⟩ := h
      exact ⟨kind, hop, htext, hsubset hmem⟩
  | unterminatedString => cases h
  | unexpectedToken =>
      obtain ⟨kind, htext, hmem⟩ := h
      exact ⟨kind, htext, hsubset hmem⟩

/-- The error about a missing operand names its operator. -/
theorem namesToken_missingOperand (hop : token.kind.isOperator = true) (hmem : token ∈ tokens) :
    NamesToken tokens (.missingOperand token.kind.text token.position) :=
  ⟨token.kind, hop, rfl, hmem⟩

/-- So does the error at the end of the tokens. -/
theorem namesToken_missingAtEnd (hdemand : ∀ op ∈ demand, op.kind.isOperator = true) :
    NamesToken demand.toList (missingAtEnd demand) := by
  cases demand with
  | none => trivial
  | some op => exact namesToken_missingOperand (hdemand op rfl) List.mem_cons_self

/-- **The error of the reader names a token**, by induction on where it stops. It is one of those
that are read, or the operator that demands the operand. -/
theorem Stops.namesToken (h : Stops level demand tokens e)
    (hdemand : ∀ op ∈ demand, op.kind.isOperator = true) :
    NamesToken (demand.toList ++ tokens) e := by
  have hsome {op : Token} (hop : op.kind.isOperator = true) :
      ∀ op' ∈ some op, op'.kind.isOperator = true := by
    rintro _ ⟨⟩
    exact hop
  -- by the place where the reader stops; the operator in front counts as one of the tokens
  induction h with
  | atEnd => exact (namesToken_missingAtEnd hdemand).mono (List.subset_append_left _ _)
  | @atParen demand token rest hkind =>
      cases demand with
      | none => exact mk_mem hkind List.mem_cons_self
      | some op => exact namesToken_missingOperand (hdemand op rfl) List.mem_cons_self
  | @atOperator demand token rest hkind =>
      refine namesToken_missingOperand ?_ (List.mem_append_right _ List.mem_cons_self)
      rcases hkind with hkind | hkind <;> rw [hkind] <;> rfl
  | @not demand token rest e hkind _ ih =>
      have hop : token.kind.isOperator = true := by rw [hkind]; rfl
      exact (ih (hsome hop)).mono (List.subset_append_right _ _)
  | @inner demand token rest e _ _ ih =>
      refine (ih nofun).mono ?_
      exact List.subset_append_of_subset_right _ (List.subset_cons_self _ _)
  | @unclosed demand token taken t hkind _ =>
      exact mk_mem hkind (List.mem_append_right _ List.mem_cons_self)
  | @misplaced demand token next taken rest t _ _ _ _ _ =>
      exact ⟨next.kind, rfl, by simp⟩
  | unary _ ih | conjunct _ ih => exact ih hdemand
  | @and demand taken rest op t e _ hkind _ ih | @or demand taken rest op t e _ hkind _ ih =>
      have hop : op.kind.isOperator = true := by rw [hkind]; rfl
      refine (ih (hsome hop)).mono ?_
      exact List.subset_append_of_subset_right _ (List.subset_append_right _ _)

/-- The error about a token that is left names it. -/
theorem namesToken_leftover (hmem : token ∈ tokens) : NamesToken tokens (leftover token) := by
  unfold leftover
  split
  · next hkind => exact mk_mem hkind hmem
  · exact ⟨token.kind, rfl, hmem⟩

/-- An error of the reader names one of the tokens. -/
theorem namesToken_of_parseTokens (h : parseTokens tokens = .error e) : NamesToken tokens e := by
  rcases parseTokens_eq_error_iff.mp h with hstops | ⟨taken, token, rest, t, rfl, -, -, -, rfl⟩
  · exact hstops.namesToken nofun
  · exact namesToken_leftover (List.mem_append_right _ List.mem_cons_self)

end Condition

/-! ### Errors and the text -/

/-- The text has a token of this kind at this position. -/
def Token.OccursAt (kind : TokenKind) (text : List Char) (p : Nat) : Prop :=
  ∃ tokens, Token.scan text = .ok tokens ∧ ⟨kind, p⟩ ∈ tokens

/-- What an error names stands in the text at its position; the operator that lacks an operand and
the token that does not fit are tokens of the text, as a whole. -/
def ConditionError.PointsInto (text : List Char) : ConditionError → Prop
  | .empty => True
  | .missingClosingParen p => StandsAt "(".toList text p
  | .unexpectedClosingParen p => StandsAt ")".toList text p
  | .missingOperand op p => StandsAt op.toList text p ∧
      ∃ kind, kind.isOperator = true ∧ kind.text = op ∧ Token.OccursAt kind text p
  | .unterminatedString p => ∃ c, Quotes.opens c = true ∧ StandsAt [c] text p
  | .unexpectedToken t p => StandsAt t.toList text p ∧
      ∃ kind, kind.text = t ∧ Token.OccursAt kind text p

namespace Condition

variable {text : List Char} {tokens : List Token} {e : ConditionError} {p : Nat}

/-- A token of the text stands where it says. -/
theorem standsAt_of_mem {token : Token} (hscan : Token.scan text = .ok tokens)
    (htoken : token ∈ tokens) : StandsAt token.kind.text.toList text token.position := by
  obtain ⟨p, hp, hstands⟩ := (Token.scan_eq_ok_iff.mp hscan).standsAt htoken
  rw [hp, Nat.zero_add]
  exact hstands

/-- What names a token points at it in the text. -/
theorem NamesToken.pointsInto (h : NamesToken tokens e) (hscan : Token.scan text = .ok tokens) :
    e.PointsInto text := by
  cases e with
  | empty => trivial
  | missingClosingParen | unexpectedClosingParen => exact standsAt_of_mem hscan h
  | missingOperand =>
      obtain ⟨kind, hop, rfl, hmem⟩ := h
      have hstands := standsAt_of_mem hscan hmem
      exact ⟨hstands, kind, hop, rfl, tokens, hscan, hmem⟩
  | unterminatedString => cases h
  | unexpectedToken =>
      obtain ⟨kind, rfl, hmem⟩ := h
      have hstands := standsAt_of_mem hscan hmem
      exact ⟨hstands, kind, rfl, tokens, hscan, hmem⟩

/-- What the scanner blames is a character of the text. -/
theorem pointsInto_of_scan (h : Token.scan text = .error e) : e.PointsInto text := by
  cases Token.blames_of_scanFrom h with
  | @quote a b c htext _ hc =>
      rw [Nat.zero_add]
      exact ⟨c, hc, a, b, by simpa using htext, rfl⟩
  | @call a b htext =>
      rw [Nat.zero_add]
      exact ⟨a, b, by simpa using htext, rfl⟩

/-- An error with a position points at what it names. -/
theorem pointsInto_of_parse {text : String} (h : parse text = .error e) :
    e.PointsInto text.toList := by
  by_cases hempty : e = .empty
  · rw [hempty]
    trivial
  rcases (parse_eq_error_iff (not_isBlank_of_parse_eq_error h hempty)).mp h with
    hscan | ⟨tokens, hscan, htokens⟩
  · exact pointsInto_of_scan hscan
  · exact (namesToken_of_parseTokens htokens).pointsInto hscan

end Condition

/-- A position of an error lies in the text that the error points into. -/
theorem ConditionError.PointsInto.lt_length {text : List Char} {e : ConditionError} {p : Nat}
    (h : e.PointsInto text) (hp : e.position = some p) : p < text.length := by
  have htoken {kind : TokenKind} (hstands : StandsAt kind.text.toList text p)
      (hoccurs : Token.OccursAt kind text p) : p < text.length := by
    obtain ⟨tokens, hscan, hmem⟩ := hoccurs
    exact hstands.lt_length ((Token.scan_eq_ok_iff.mp hscan).text_ne_nil hmem)
  cases e with
  | empty => cases hp
  | missingClosingParen | unexpectedClosingParen =>
      obtain rfl := Option.some.inj hp
      exact StandsAt.lt_length h (by decide)
  | missingOperand =>
      obtain rfl := Option.some.inj hp
      obtain ⟨hstands, kind, -, rfl, hoccurs⟩ := h
      exact htoken hstands hoccurs
  | unterminatedString =>
      obtain rfl := Option.some.inj hp
      obtain ⟨c, -, hstands⟩ := h
      exact hstands.lt_length (List.cons_ne_nil _ _)
  | unexpectedToken =>
      obtain rfl := Option.some.inj hp
      obtain ⟨hstands, kind, rfl, hoccurs⟩ := h
      exact htoken hstands hoccurs

namespace Condition

/-- **Every error points at what it names.** The position of an error is one of the text, and at it
stands what the error is about: the parenthesis that is open or closes nothing, the quote that is
open, the operator without an operand, or the token that does not fit. -/
theorem position_of_parse_error {text : String} {e : ConditionError} {p : Nat}
    (h : parse text = .error e) (hp : e.position = some p) :
    p < text.length ∧ e.PointsInto text.toList := by
  have hpoints := pointsInto_of_parse h
  have hlt := hpoints.lt_length hp
  rw [String.length_toList] at hlt
  exact ⟨hlt, hpoints⟩

/-- A literal behind a condition does not fit, and is named with all of its text. -/
theorem position_of_parse_error_literal :
    parse "(a) b == 'c d' && e" = .error (.unexpectedToken "b == 'c d'" 4) ∧
      StandsAt "b == 'c d'".toList "(a) b == 'c d' && e".toList 4 := by
  have hparse : parse "(a) b == 'c d' && e" = .error (.unexpectedToken "b == 'c d'" 4) := by
    refine (parse_eq_error_iff (by decide)).mpr (.inr
      ⟨[⟨.openParen, 0⟩, ⟨.literal "a", 1⟩, ⟨.closeParen, 2⟩, ⟨.literal "b == 'c d'", 4⟩,
        ⟨.and, 15⟩, ⟨.literal "e", 18⟩], by decide, ?_⟩)
    refine parseTokens_eq_error_iff.mpr (.inr
      ⟨[⟨.openParen, 0⟩, ⟨.literal "a", 1⟩, ⟨.closeParen, 2⟩], ⟨.literal "b == 'c d'", 4⟩,
        [⟨.and, 15⟩, ⟨.literal "e", 18⟩], leaf "a", rfl, ?_, nofun, nofun, rfl⟩)
    exact .conjunct (.unary (.primary (.paren (.conjunct (.unary (.primary (.literal "a")))))))
  exact ⟨hparse, (position_of_parse_error hparse rfl).2.1⟩

end Condition

end AgentPipeline
