import AgentPipeline.Proofs.Condition.Failure
import AgentPipeline.Proofs.Condition.Nesting

/-!
# What the errors about conditions mean

The error of a text that is no condition names a parenthesis or says that there is nothing to read.
`parse_error_cases` says when it is right. A parenthesis that is to be closed has no match, whether
the scanner blames it (it belongs to a call) or the reader does. A parenthesis that closes nothing
has no match either, with one exception: the reader gives the same error for a `)` directly behind
its `(`. And the error for an empty text is also that of a text that ends behind a `(`, although
this parenthesis is never closed.

What the reader has read is nested well (`Derives.wellNested`), and so is the text it stands in
(`Spells.balanced`); this is why nothing in it matches the parenthesis in question.
-/

namespace AgentPipeline

open Quotes (outside)

/-! ### Nesting of sentences -/

/-- The parentheses among the tokens come in pairs. -/
structure WellNested (ks : List TokenKind) : Prop where
  sum_eq : kindsNesting ks = 0
  bound : ∀ ks', ks' <+: ks → 0 ≤ kindsNesting ks'

namespace WellNested

variable {ks ks' : List TokenKind} {kind : TokenKind}

/-- No tokens are nested well. -/
theorem nil : WellNested [] :=
  ⟨rfl, fun ks' h => by rw [List.prefix_nil.mp h]; exact Int.le_refl _⟩

/-- Two sequences that are nested well are so side by side. -/
theorem append (h : WellNested ks) (h' : WellNested ks') : WellNested (ks ++ ks') := by
  refine ⟨by rw [kindsNesting_append, h.sum_eq, h'.sum_eq]; rfl, fun front hfront => ?_⟩
  rcases prefix_append_cases hfront with hfront | ⟨more, rfl, hmore⟩
  · exact h.bound front hfront
  · rw [kindsNesting_append, h.sum_eq, Int.zero_add]
    exact h'.bound more hmore

/-- A token other than a parenthesis is nested well. -/
theorem singleton (h : kind.weight = 0) : WellNested [kind] := by
  have hsum : kindsNesting [kind] = 0 := by rw [kindsNesting_cons, h]; rfl
  refine ⟨hsum, fun front hfront => ?_⟩
  rcases eq_nil_or_eq_of_prefix_singleton hfront with rfl | rfl
  · exact Int.le_refl _
  · exact Int.le_of_eq hsum.symm

/-- Parentheses around what is nested well are nested well. -/
theorem paren (h : WellNested ks) : WellNested (.openParen :: ks ++ [.closeParen]) := by
  have hopen : TokenKind.openParen.weight = 1 := rfl
  have hclose : kindsNesting [.closeParen] = -1 := rfl
  refine ⟨by rw [kindsNesting_append, kindsNesting_cons, h.sum_eq]; rfl, fun front hfront => ?_⟩
  rcases List.prefix_cons_iff.mp hfront with rfl | ⟨front, rfl, hrest⟩
  · exact Int.le_refl _
  · rw [kindsNesting_cons, hopen]
    rcases List.prefix_concat_iff.mp hrest with rfl | hks
    · rw [kindsNesting_append, h.sum_eq, hclose]
      decide
    · have hbound := h.bound front hks
      omega

end WellNested

namespace Condition

variable {level : Precedence} {kinds : List TokenKind} {t : Condition}

/-- A sentence is nested well. -/
theorem Derives.wellNested (h : Derives level kinds t) : WellNested kinds := by
  induction h with
  | literal text => exact .singleton rfl
  | paren _ ih => exact ih.paren
  | primary _ ih | unary _ ih | conjunct _ ih => exact ih
  | not _ ih => exact (WellNested.singleton rfl).append ih
  | and _ _ ihl ihr | or _ _ ihl ihr =>
      exact ihl.append ((WellNested.singleton rfl).append ihr)

end Condition

/-! ### Parentheses among the tokens of a text -/

namespace Token.Scans

variable {text : List Char} {before behind taken : List Token} {paren : Token}

/-- A token that is an opening parenthesis stands in the text as one. -/
theorem exists_openParen (h : Scans 0 text (before ++ paren :: behind))
    (hkind : paren.kind = .openParen) :
    ∃ front rest, text = front ++ '(' :: rest ∧ UpTo front paren.position ∧
      Scans (paren.position + 1) rest behind := by
  obtain ⟨a, b, rfl, hspells, hscans⟩ := h.exists_append
  obtain ⟨blanks, rest, rfl, hblanks, hposition, hrest⟩ :=
    hscans.exists_paren (.inl ⟨rfl, hkind⟩)
  refine ⟨a ++ blanks, rest, by simp, ⟨?_, ?_⟩, hrest⟩
  · rw [hposition, List.length_append]
    omega
  · rw [Quotes.after_append, hspells.quotes, (spells_blanks hblanks).quotes]

/-- A `(` in front of tokens that are nested well has no match. -/
theorem unmatchedOpen (h : Scans 0 text (before ++ paren :: taken))
    (hkind : paren.kind = .openParen) (htaken : WellNested (kinds taken)) :
    UnmatchedOpen text paren.position := by
  obtain ⟨front, rest, rfl, hupTo, hrest⟩ := h.exists_openParen hkind
  rw [← hupTo.length]
  exact unmatchedOpen_of_closesOwn hupTo.quotes (hrest.spells.closesOwn htaken.bound)

/-- A `)` behind tokens that are nested well has no match. -/
theorem unmatchedClose (h : Scans 0 text (before ++ paren :: behind))
    (hkind : paren.kind = .closeParen) (hbefore : WellNested (kinds before)) :
    UnmatchedClose text paren.position := by
  obtain ⟨a, b, rfl, hspells, hscans⟩ := h.exists_append
  obtain ⟨blanks, rest, rfl, hblanks, hposition, -⟩ :=
    hscans.exists_paren (.inr ⟨rfl, hkind⟩)
  have hfront : Spells (a ++ blanks) (kinds before) := by
    simpa using hspells.append (spells_blanks hblanks)
  have hlength : paren.position = (a ++ blanks).length := by
    rw [hposition, List.length_append]
    omega
  rw [hlength, ← List.append_assoc]
  exact unmatchedClose_of_balanced (hfront.balanced hbefore.sum_eq hbefore.bound)

/-- A `)` with a `(` in front of it belongs to it. -/
theorem closesNothing (h : Scans 0 text (before ++ paren :: behind))
    (hkind : paren.kind = .closeParen) (hbefore : Condition.EndsOpen before) :
    ClosesNothing text paren.position := by
  obtain ⟨opening, hlast, hopening⟩ := hbefore
  obtain ⟨before, rfl⟩ := List.getLast?_eq_some_iff.mp hlast
  rw [List.append_assoc] at h
  obtain ⟨front, rest, rfl, hupTo, hrest⟩ := h.exists_openParen hopening
  obtain ⟨blanks, rest, rfl, hblanks, hposition, -⟩ := hrest.exists_paren (.inr ⟨rfl, hkind⟩)
  have hspells := spells_blanks hblanks
  refine ⟨front, blanks, rest, rfl, hblanks, ⟨?_, ?_⟩, front, blanks, rest, rfl,
    ⟨rfl, hupTo.quotes⟩, ?_, hspells.balanced rfl WellNested.nil.bound⟩
  · rw [hposition, List.length_append, List.length_cons, hupTo.length]
    omega
  · rw [Quotes.after_append, hupTo.quotes, Quotes.after_cons]
    exact hspells.quotes
  · rw [hposition, hupTo.length]

end Token.Scans

/-! ### The errors of a text -/

namespace Condition

variable {text : String} {e : ConditionError} {p : Nat}

/-- A text without tokens is white space. -/
theorem isBlank_of_scan_eq_nil (h : Token.scan text.toList = .ok []) :
    Text.Str.isBlank text = true :=
  List.all_eq_true.mpr (Token.scan_eq_ok_iff.mp h).blanks

/-- The error of a text that is not blank is one of the scanner or one of the reader. -/
theorem parse_eq_error_iff (h : Text.Str.isBlank text = false) :
    parse text = .error e ↔ Token.scan text.toList = .error e ∨
      ∃ tokens, Token.scan text.toList = .ok tokens ∧ parseTokens tokens = .error e := by
  rw [parse, h, if_neg Bool.false_ne_true, bind_eq_error_iff]

/-- White space gives no other error than the one for an empty text. -/
theorem not_isBlank_of_parse_eq_error (h : parse text = .error e) (he : e ≠ .empty) :
    Text.Str.isBlank text = false := by
  by_contra hblank
  rw [Bool.not_eq_false] at hblank
  rw [parse, if_pos hblank] at h
  exact he (Except.error.inj h).symm

/-- A text that ends where an operand should stand behind a `(`. -/
def EndsBehindOpen (text : String) : Prop :=
  ∃ tokens, Token.scan text.toList = .ok tokens ∧ EndsOpen tokens ∧
    LacksOperand .or (Token.kinds tokens)

/-- A text is called empty if it is white space or ends behind an opening parenthesis. -/
theorem parse_eq_empty_iff :
    parse text = .error .empty ↔ Text.Str.isBlank text = true ∨ EndsBehindOpen text := by
  cases hblank : Text.Str.isBlank text with
  | true => simp [parse, hblank]
  | false =>
      have hne {tokens} (hscan : Token.scan text.toList = .ok tokens) : tokens ≠ [] := by
        rintro rfl
        rw [isBlank_of_scan_eq_nil hscan] at hblank
        cases hblank
      rw [parse_eq_error_iff hblank]
      constructor
      · rintro (hscan | ⟨tokens, hscan, htokens⟩)
        · cases Token.blames_of_scanFrom hscan
        · exact .inr ⟨tokens, hscan, (parseTokens_eq_empty_iff (hne hscan)).mp htokens⟩
      · rintro (h | ⟨tokens, hscan, h⟩)
        · cases h
        · exact .inr ⟨tokens, hscan, (parseTokens_eq_empty_iff (hne hscan)).mpr h⟩

/-- A parenthesis that is to be closed has no match. -/
theorem unmatchedOpen_of_parse (h : parse text = .error (.missingClosingParen p)) :
    UnmatchedOpen text.toList p := by
  rcases (parse_eq_error_iff (not_isBlank_of_parse_eq_error h nofun)).mp h with
    hscan | ⟨tokens, hscan, htokens⟩
  · generalize he : ConditionError.missingClosingParen p = e at hscan
    cases Token.blames_of_scanFrom hscan with
    | quote => cases he
    | @call a b htext ha hb =>
        obtain rfl := ConditionError.missingClosingParen.inj he
        rw [htext, Nat.zero_add]
        exact unmatchedOpen_of_closesOwn ha hb
  · rcases parseTokens_eq_error_iff.mp htokens with
      hstops | ⟨taken, token, rest, t, -, -, -, -, he⟩
    · obtain ⟨before, paren, taken, t, rfl, hkind, rfl, hd⟩ := hstops.of_missingClosingParen
      exact (Token.scan_eq_ok_iff.mp hscan).unmatchedOpen hkind hd.wellNested
    · unfold leftover at he
      split at he <;> cases he

/-- A parenthesis that closes nothing has no match, or stands directly behind its own. -/
theorem unmatchedClose_of_parse (h : parse text = .error (.unexpectedClosingParen p)) :
    UnmatchedClose text.toList p ∨ ClosesNothing text.toList p := by
  rcases (parse_eq_error_iff (not_isBlank_of_parse_eq_error h nofun)).mp h with
    hscan | ⟨tokens, hscan, htokens⟩
  · cases Token.blames_of_scanFrom hscan
  · have hscans := Token.scan_eq_ok_iff.mp hscan
    rcases parseTokens_eq_error_iff.mp htokens with
      hstops | ⟨taken, token, rest, t, rfl, hd, -, -, he⟩
    · obtain ⟨before, paren, rest, rfl, hkind, rfl, ⟨rfl, -⟩ | hopen⟩ :=
        hstops.of_unexpectedClosingParen
      · exact .inl (hscans.unmatchedClose hkind .nil)
      · exact .inr (hscans.closesNothing hkind hopen)
    · unfold leftover at he
      split at he
      · next hkind =>
        obtain rfl := ConditionError.unexpectedClosingParen.inj he
        exact .inl (hscans.unmatchedClose hkind hd.wellNested)
      · cases he

/-- **What the errors mean.** The error for an empty text says that there is nothing but white
space, or that the text ends behind a `(`. The error for an open parenthesis is right. The error
for a closing one is right unless there is nothing between the parenthesis and its match. -/
theorem parse_error_cases (text : String) :
    (parse text = .error .empty ↔ Text.Str.isBlank text = true ∨ EndsBehindOpen text) ∧
      (∀ p, parse text = .error (.missingClosingParen p) → UnmatchedOpen text.toList p) ∧
        ∀ p, parse text = .error (.unexpectedClosingParen p) →
          UnmatchedClose text.toList p ∨ ClosesNothing text.toList p :=
  ⟨parse_eq_empty_iff, fun _ => unmatchedOpen_of_parse, fun _ => unmatchedClose_of_parse⟩

/-- Parentheses without a match. -/
theorem parse_error_cases_unmatched :
    UnmatchedOpen "a && (b".toList 5 ∧
      (UnmatchedClose "(a))".toList 3 ∨ ClosesNothing "(a))".toList 3) := by
  have hleaf (text : String) : Derives .unary [.literal text] (leaf text) :=
    .primary (.literal text)
  have hopen : parse "a && (b" = .error (.missingClosingParen 5) := by
    refine (parse_eq_error_iff (by decide)).mpr (.inr
      ⟨[⟨.literal "a", 0⟩, ⟨.and, 2⟩, ⟨.openParen, 5⟩, ⟨.literal "b", 6⟩], by decide, ?_⟩)
    have hstops : Stops .and none
        ([⟨.literal "a", 0⟩] ++ ⟨.and, 2⟩ :: [⟨.openParen, 5⟩, ⟨.literal "b", 6⟩])
        (.missingClosingParen 5) :=
      .and (.unary (hleaf "a")) rfl (.unclosed rfl (.conjunct (.unary (hleaf "b"))))
    exact parseTokens_eq_error_iff.mpr (.inl (.conjunct hstops))
  have hclose : parse "(a))" = .error (.unexpectedClosingParen 3) := by
    refine (parse_eq_error_iff (by decide)).mpr (.inr
      ⟨[⟨.openParen, 0⟩, ⟨.literal "a", 1⟩, ⟨.closeParen, 2⟩, ⟨.closeParen, 3⟩], by decide, ?_⟩)
    refine parseTokens_eq_error_iff.mpr (.inr
      ⟨[⟨.openParen, 0⟩, ⟨.literal "a", 1⟩, ⟨.closeParen, 2⟩], ⟨.closeParen, 3⟩, [], leaf "a",
        rfl, ?_, nofun, nofun, rfl⟩)
    exact .conjunct (.unary (.primary (.paren (.conjunct (.unary (hleaf "a"))))))
  exact ⟨(parse_error_cases "a && (b").2.1 5 hopen, (parse_error_cases "(a))").2.2 3 hclose⟩

/-- A text that ends behind a `(` is not blank, and its parenthesis is not closed. The parentheses
of `()` belong together. -/
theorem parse_open_eq_empty :
    (parse "(" = .error .empty ∧ Text.Str.isBlank "(" = false ∧ UnmatchedOpen "(".toList 0) ∧
      parse "()" = .error (.unexpectedClosingParen 1) ∧ Matches "()".toList 0 1 := by
  refine ⟨⟨?_, by decide, ?_⟩, ?_, ?_⟩
  · refine (parse_eq_error_iff (by decide)).mpr (.inr ⟨[⟨.openParen, 0⟩], by decide, ?_⟩)
    exact (parseTokens_eq_empty_iff (List.cons_ne_nil _ _)).mpr
      ⟨⟨_, rfl, rfl⟩, (LacksOperand.openParen.unary).conjunct⟩
  · exact unmatchedOpen_of_closesOwn (rfl : outside.after [] = outside) balanced_nil.closesOwn
  · refine (parse_eq_error_iff (by decide)).mpr
      (.inr ⟨[⟨.openParen, 0⟩, ⟨.closeParen, 1⟩], by decide, ?_⟩)
    exact parseTokens_eq_error_iff.mpr
      (.inl (.conjunct (.unary (.inner rfl (.conjunct (.unary (.atParen rfl)))))))
  · exact ⟨[], [], [], rfl, ⟨rfl, rfl⟩, rfl, balanced_nil⟩

end Condition

end AgentPipeline
