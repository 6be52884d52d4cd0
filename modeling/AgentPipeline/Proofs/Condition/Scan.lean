import AgentPipeline.Proofs.Condition.Literal

/-!
# Scanning

`Token.scanFrom` goes through a text character by character and skips what belongs to the
token before. `Scans position text tokens` is the same as a relation that consumes a whole
token at a time: white space, a symbol, or a stretch that is a literal (`scanFrom_eq_ok_iff`).

The text of a literal token is a **literal text** (`IsLiteral`): trimmed, not empty, and one
literal from its first character to its last when it stands alone. The main statements are
the two directions in which literal texts and scanning fit together:

* `Scans.isLiteral` — every literal token has a literal text;
* `Reads.literal` — a literal text is scanned as this one literal wherever it is embedded,
  as long as the end of the text, white space or a closing parenthesis follows.
-/

namespace AgentPipeline

namespace Token

/-- The kinds of some tokens. -/
def kinds (tokens : List Token) : List TokenKind := tokens.map (·.kind)

/-- No tokens have no kinds. -/
@[simp] theorem kinds_nil : kinds [] = [] := rfl

/-- The kinds of some tokens start with that of the first. -/
@[simp] theorem kinds_cons (token : Token) (tokens : List Token) :
    kinds (token :: tokens) = token.kind :: kinds tokens := rfl

/-- The kinds of tokens in two parts. -/
@[simp] theorem kinds_append (a b : List Token) : kinds (a ++ b) = kinds a ++ kinds b :=
  List.map_append

/-! ### Scanning as a relation -/

/-- **Scanning**: from this position on, the text consists of these tokens and white
space. -/
inductive Scans : Nat → List Char → List Token → Prop
  | nil {position : Nat} : Scans position [] []
  | blank {position : Nat} {c : Char} {cs : List Char} {tokens : List Token} :
      Text.isBlank c = true → Scans (position + 1) cs tokens →
      Scans position (c :: cs) tokens
  | symbol {position : Nat} {c : Char} {cs : List Char} {kind : TokenKind} {width : Nat}
      {tokens : List Token} :
      symbolAt c cs.head? = some (kind, width) →
      Scans (position + width) ((c :: cs).drop width) tokens →
      Scans position (c :: cs) (⟨kind, position⟩ :: tokens)
  | literal {position : Nat} {lit rest : List Char} {tokens : List Token} :
      lit ≠ [] → (∀ c ∈ lit.head?, Text.isBlank c = false) →
      Cursor.start.Covers lit rest.head? → (Cursor.start.afterAll lit).EndsAt rest →
      Scans (position + lit.length) rest tokens →
      Scans position (lit ++ rest) (⟨.literal (literalText lit), position⟩ :: tokens)

/-- Skipping some characters is scanning behind them. -/
theorem scanFrom_eq_scanFrom_drop (skip position : Nat) (cs : List Char) :
    scanFrom skip position cs = scanFrom 0 (position + skip) (cs.drop skip) := by
  induction cs generalizing skip position with
  | nil => simp [scanFrom]
  | cons c cs ih =>
      cases skip with
      | zero => rfl
      | succ skip =>
          rw [scanFrom, ih, List.drop_succ_cons, Nat.add_right_comm, Nat.add_assoc]

/-- A symbol has a character at least. -/
theorem symbolAt_width {c : Char} {next : Option Char} {kind : TokenKind} {width : Nat}
    (h : symbolAt c next = some (kind, width)) : 1 ≤ width := by
  unfold symbolAt at h
  grind

/-- White space between tokens is skipped. -/
theorem scanFrom_blank {position : Nat} {c : Char} {cs : List Char}
    (h : Text.isBlank c = true) :
    scanFrom 0 position (c :: cs) = scanFrom 0 (position + 1) cs := by
  rw [scanFrom, if_pos h]

/-- A symbol is a token, and the scan goes on behind it. -/
theorem scanFrom_symbol {position : Nat} {c : Char} {cs : List Char} {kind : TokenKind}
    {width : Nat} (h : symbolAt c cs.head? = some (kind, width)) :
    scanFrom 0 position (c :: cs) =
      (⟨kind, position⟩ :: ·) <$> scanFrom 0 (position + width) ((c :: cs).drop width) := by
  have hblank : ¬Text.isBlank c = true := by
    intro hc
    simp [symbolAt_of_isBlank _ hc] at h
  obtain ⟨width, rfl⟩ := Nat.exists_eq_add_of_le' (symbolAt_width h)
  rw [scanFrom, if_neg hblank, h, List.drop_succ_cons]
  simp only [Nat.add_sub_cancel]
  rw [scanFrom_eq_scanFrom_drop, Nat.add_assoc, Nat.add_comm 1]

/-- A literal at the start of a text: its length, and what is scanned behind it. -/
theorem scanFrom_literal {position : Nat} {c : Char} {cs : List Char} {length : Nat}
    (hblank : Text.isBlank c = false) (hsymbol : symbolAt c cs.head? = none)
    (hspan : Cursor.start.span ⟨0, 0, position⟩ (c :: cs) = .ok length) (hpos : 1 ≤ length) :
    scanFrom 0 position (c :: cs) =
      (⟨.literal (literalText ((c :: cs).take length)), position⟩ :: ·) <$>
        scanFrom 0 (position + length) ((c :: cs).drop length) := by
  obtain ⟨length, rfl⟩ := Nat.exists_eq_add_of_le' hpos
  have hspan' : literalSpan 0 0 .outside 0 none position (c :: cs) = .ok (length + 1) := hspan
  rw [scanFrom, if_neg (by simp [hblank]), hsymbol]
  simp only [hspan', ok_bind, Nat.add_sub_cancel, List.drop_succ_cons]
  rw [scanFrom_eq_scanFrom_drop, Nat.add_assoc, Nat.add_comm 1]
  rfl

/-- An error in the literal at the start of a text is one of the text. -/
theorem scanFrom_of_span_eq_error {position : Nat} {c : Char} {cs : List Char}
    {e : ConditionError} (hblank : Text.isBlank c = false) (hsymbol : symbolAt c cs.head? = none)
    (hspan : Cursor.start.span ⟨0, 0, position⟩ (c :: cs) = .error e) :
    scanFrom 0 position (c :: cs) = .error e := by
  have hspan' : literalSpan 0 0 .outside 0 none position (c :: cs) = .error e := hspan
  rw [scanFrom, if_neg (by simp [hblank]), hsymbol]
  simp only [hspan']
  rfl

/-- Whatever starts no symbol belongs to the literal that starts with it. -/
theorem not_ends_start {c : Char} {next : Option Char} (h : symbolAt c next = none) :
    ¬Cursor.start.Ends c next := by
  rintro ⟨-, -, hsymbol⟩
  simp [h] at hsymbol

/-- Where a literal can start there is no symbol. -/
theorem symbolAt_of_not_ends_start {c : Char} {next : Option Char}
    (h : ¬Cursor.start.Ends c next) : symbolAt c next = none := by
  by_cases hnone : symbolAt c next = none
  · exact hnone
  · refine absurd ⟨⟨rfl, rfl⟩, ?_, Option.isSome_iff_ne_none.mpr hnone⟩ h
    simp [Cursor.start, precedesCall]

/-- What the relation allows is what the scan does, by induction on the tokens. -/
theorem scanFrom_of_scans {position : Nat} {cs : List Char} {tokens : List Token}
    (h : Scans position cs tokens) : scanFrom 0 position cs = .ok tokens := by
  induction h with
  | nil => rfl
  | blank hc _ ih => rw [scanFrom_blank hc, ih]
  | symbol hsymbol _ ih => rw [scanFrom_symbol hsymbol, ih]; rfl
  | @literal position lit rest tokens hne hblank hcovers hends _ ih =>
      obtain ⟨c, lit, rfl⟩ := List.exists_cons_of_ne_nil hne
      have hspan := Cursor.span_eq_ok (m := ⟨0, 0, position⟩) hcovers hends
      have hsymbol := symbolAt_of_not_ends_start hcovers.1
      rw [← List.head?_append] at hsymbol
      rw [List.cons_append] at hspan ⊢
      rw [scanFrom_literal (hblank c rfl) hsymbol hspan (by simp), ← List.cons_append,
        List.drop_left, List.take_left, ih]
      rfl

/-- A literal that starts where no symbol does covers a stretch and ends behind it. -/
theorem exists_literal {position : Nat} {c : Char} {cs : List Char} {tokens : List Token}
    (hblank : Text.isBlank c = false) (hsymbol : symbolAt c cs.head? = none)
    (h : scanFrom 0 position (c :: cs) = .ok tokens) :
    ∃ lit rest tokens', c :: cs = lit ++ rest ∧ lit ≠ [] ∧
      Cursor.start.Covers lit rest.head? ∧ (Cursor.start.afterAll lit).EndsAt rest ∧
      scanFrom 0 (position + lit.length) rest = .ok tokens' ∧
      tokens = ⟨.literal (literalText lit), position⟩ :: tokens' := by
  have hspan : ∃ length, Cursor.start.span ⟨0, 0, position⟩ (c :: cs) = .ok length := by
    rw [scanFrom, if_neg (by simp [hblank]), hsymbol] at h
    obtain ⟨length, hlength, -⟩ := bind_eq_ok_iff.mp h
    exact ⟨length, hlength⟩
  obtain ⟨length, hlength⟩ := hspan
  obtain ⟨lit, rest, heq, rfl, hcovers, hends⟩ := Cursor.exists_of_span_eq_ok hlength
  have hne : lit ≠ [] := by
    rintro rfl
    obtain rfl : c :: cs = rest := heq
    exact not_ends_start hsymbol hends
  rw [scanFrom_literal hblank hsymbol hlength (List.length_pos_of_ne_nil hne), heq,
    List.take_left, List.drop_left, map_eq_ok_iff] at h
  obtain ⟨tokens', htokens, rfl⟩ := h
  exact ⟨lit, rest, tokens', heq, hne, hcovers, hends, htokens, rfl⟩

/-- What the scan does the relation allows, by induction on the text that is left. -/
theorem scans_of_scanFrom {position : Nat} {cs : List Char} {tokens : List Token}
    (h : scanFrom 0 position cs = .ok tokens) : Scans position cs tokens := by
  -- every token shortens what is left to scan
  induction hn : cs.length using Nat.strong_induction_on generalizing position cs tokens with
  | _ n ih =>
  subst hn
  cases cs with
  | nil =>
      obtain rfl : [] = tokens := Except.ok.inj h
      exact .nil
  | cons c cs =>
      by_cases hblank : Text.isBlank c = true
      · rw [scanFrom_blank hblank] at h
        exact .blank hblank (ih _ (by simp) h rfl)
      · cases hsymbol : symbolAt c cs.head? with
        | some symbol =>
            obtain ⟨kind, width⟩ := symbol
            rw [scanFrom_symbol hsymbol, map_eq_ok_iff] at h
            obtain ⟨rest, hrest, rfl⟩ := h
            have hwidth := symbolAt_width hsymbol
            refine .symbol hsymbol (ih _ ?_ hrest rfl)
            rw [List.length_drop, List.length_cons]
            omega
        | none =>
            rw [Bool.not_eq_true] at hblank
            obtain ⟨lit, rest, tokens, heq, hne, hcovers, hends, htokens, rfl⟩ :=
              exists_literal hblank hsymbol h
            have hhead : ∀ d ∈ lit.head?, Text.isBlank d = false := by
              obtain ⟨d, lit, rfl⟩ := List.exists_cons_of_ne_nil hne
              rintro _ ⟨⟩
              rwa [← (List.cons.inj heq).1]
            rw [heq] at ih ⊢
            refine .literal hne hhead hcovers hends (ih _ ?_ htokens rfl)
            have := List.length_pos_of_ne_nil hne
            rw [List.length_append]
            omega

/-- **Scanning is the relation** `Scans`. -/
theorem scanFrom_eq_ok_iff {position : Nat} {cs : List Char} {tokens : List Token} :
    scanFrom 0 position cs = .ok tokens ↔ Scans position cs tokens :=
  ⟨scans_of_scanFrom, scanFrom_of_scans⟩

/-- The scan of a whole text. -/
theorem scan_eq_ok_iff {text : List Char} {tokens : List Token} :
    scan text = .ok tokens ↔ Scans 0 text tokens := scanFrom_eq_ok_iff

/-- White space is no token. -/
theorem scans_blanks {position : Nat} {cs : List Char} (h : Text.Blanks cs) :
    Scans position cs [] := by
  induction cs generalizing position with
  | nil => exact .nil
  | cons c cs ih =>
      rw [Text.blanks_cons] at h
      exact .blank h.1 (ih h.2)

/-! ### Literal texts -/

/-- A text that is one literal from its first character to its last, trimmed. -/
structure IsLiteral (cs : List Char) : Prop where
  ne_nil : cs ≠ []
  trimmed : Text.Trimmed cs
  covers : Cursor.start.Covers cs none
  closed : (Cursor.start.afterAll cs).Closed

/-- The stretch of a literal, trimmed, is a literal text. -/
theorem isLiteral_trim {lit rest : List Char} (hne : lit ≠ [])
    (hhead : ∀ c ∈ lit.head?, Text.isBlank c = false)
    (hcovers : Cursor.start.Covers lit rest.head?)
    (hends : (Cursor.start.afterAll lit).EndsAt rest) : IsLiteral (Text.trim lit) := by
  obtain ⟨front, back, heq, hfront, hback⟩ := Text.exists_trim lit
  obtain ⟨c, lit, rfl⟩ := List.exists_cons_of_ne_nil hne
  have hc : Text.isBlank c = false := hhead c rfl
  -- a literal starts with a visible character, so only its end is trimmed
  obtain rfl : front = [] := by
    cases front with
    | nil => rfl
    | cons d front =>
        obtain rfl : c = d := (List.cons.inj heq).1
        exact absurd (hfront c List.mem_cons_self) (by simp [hc])
  rw [List.nil_append] at heq
  have hbody : Text.trim (c :: lit) ≠ [] := by
    intro hnil
    rw [hnil, List.nil_append] at heq
    exact absurd (hback c (heq ▸ List.mem_cons_self)) (by simp [hc])
  -- what is trimmed there does not belong to `!=` or another operator
  have hnext : back.head?.or rest.head? ≠ some '=' := by
    cases back with
    | nil => exact hends.head_ne
    | cons d back =>
        have hd := hback d List.mem_cons_self
        simpa using Text.ne_of_isBlank hd (by decide)
  rw [heq, Cursor.covers_append] at hcovers
  rw [heq, Cursor.afterAll_append] at hends
  exact ⟨hbody, Text.trimmed_trim _, hcovers.1.of_next hnext (by simp) (by simp),
    Cursor.closed_of_afterAll_blanks (Cursor.quoted_start.afterAll _) hback hends.closed⟩

/-- No symbol is a literal. -/
theorem symbolAt_ne_literal {c : Char} {next : Option Char} {text : String} {width : Nat} :
    symbolAt c next ≠ some (.literal text, width) := by
  unfold symbolAt
  grind

/-- **The text of a literal token** is a literal text. -/
theorem Scans.isLiteral {position : Nat} {cs : List Char} {tokens : List Token}
    (h : Scans position cs tokens) {text : String} (ht : .literal text ∈ kinds tokens) :
    IsLiteral text.toList := by
  induction h with
  | nil => simp at ht
  | blank _ _ ih => exact ih ht
  | symbol hsymbol _ ih =>
      rw [kinds_cons, List.mem_cons] at ht
      rcases ht with rfl | ht
      · exact absurd hsymbol symbolAt_ne_literal
      · exact ih ht
  | literal hne hhead hcovers hends _ ih =>
      rw [kinds_cons, List.mem_cons] at ht
      rcases ht with heq | ht
      · obtain rfl := TokenKind.literal.inj heq
        rw [literalText, String.toList_ofList]
        exact isLiteral_trim hne hhead hcovers hends
      · exact ih ht

/-! ### Embedding literal texts -/

/-- What may stand behind a literal text without becoming a part of it: white space, and
then nothing or a symbol other than `(`. An operator may not follow without white space,
because its first character may pair up with the last one of the literal. -/
structure Delimits (rest : List Char) : Prop where
  head_ne_and : rest.head? ≠ some '&'
  head_ne_or : rest.head? ≠ some '|'
  exists_symbol : ∃ blanks tail, rest = blanks ++ tail ∧ Text.Blanks blanks ∧
    tail.head? ≠ some '(' ∧ Cursor.start.EndsAt tail

/-- The end of the text may stand behind a literal. -/
theorem delimits_nil : Delimits [] :=
  ⟨by simp, by simp, [], [], rfl, Text.blanks_nil, by simp, rfl, rfl⟩

/-- A closing parenthesis may stand behind a literal. -/
theorem delimits_closeParen (rest : List Char) : Delimits (')' :: rest) := by
  refine ⟨by simp, by simp, [], ')' :: rest, rfl, Text.blanks_nil, by simp, ?_⟩
  exact ⟨⟨rfl, rfl⟩, by simp, by simp [symbolAt]⟩

/-- Where nothing is open, every symbol but `(` ends a literal, whatever its last character
is. -/
theorem endsAt_of_closed {s : Cursor} {tail : List Char} (hs : s.Closed)
    (hne : tail.head? ≠ some '(') (h : Cursor.start.EndsAt tail) : s.EndsAt tail := by
  cases tail with
  | nil => exact hs
  | cons c tail =>
      refine ⟨hs, ?_, h.2.2⟩
      rintro ⟨rfl, -⟩
      exact hne rfl

/-- White space of any length is skipped. -/
theorem scanFrom_blanks {position : Nat} {blanks tail : List Char}
    (h : Text.Blanks blanks) :
    scanFrom 0 position (blanks ++ tail) = scanFrom 0 (position + blanks.length) tail := by
  induction blanks generalizing position with
  | nil => rfl
  | cons c blanks ih =>
      rw [Text.blanks_cons] at h
      rw [List.cons_append, scanFrom_blank h.1, ih h.2, List.length_cons, Nat.add_assoc,
        Nat.add_comm 1]

/-- A literal text in front of what may stand behind it is one more token. -/
theorem Scans.literal_append {position : Nat} {lit rest : List Char} {tokens : List Token}
    (hlit : IsLiteral lit) (hrest : Delimits rest)
    (h : Scans (position + lit.length) rest tokens) :
    Scans position (lit ++ rest) (⟨.literal (String.ofList lit), position⟩ :: tokens) := by
  obtain ⟨blanks, tail, rfl, hblanks, hne, hends⟩ := hrest.exists_symbol
  have htext : literalText (lit ++ blanks) = String.ofList lit := by
    rw [literalText, ← List.nil_append (lit ++ blanks), ← List.append_assoc,
      Text.trim_append Text.blanks_nil hlit.trimmed hlit.ne_nil hblanks]
  have hcovers : Cursor.start.Covers (lit ++ blanks) tail.head? := by
    rw [Cursor.covers_append, ← List.head?_append]
    exact ⟨hlit.covers.of_next (by simp) hrest.head_ne_and hrest.head_ne_or,
      Cursor.covers_blanks hblanks⟩
  have hclosed : (Cursor.start.afterAll (lit ++ blanks)).Closed := by
    rw [Cursor.afterAll_append]
    exact Cursor.afterAll_blanks_of_closed hlit.closed hblanks
  have hhead : ∀ c ∈ (lit ++ blanks).head?, Text.isBlank c = false := by
    rw [List.head?_append_of_ne_nil _ hlit.ne_nil]
    exact hlit.trimmed.1
  rw [← scanFrom_eq_ok_iff, scanFrom_blanks hblanks, scanFrom_eq_ok_iff, Nat.add_assoc,
    ← List.length_append] at h
  rw [← List.append_assoc, ← htext]
  exact .literal (by simp [hlit.ne_nil]) hhead hcovers (endsAt_of_closed hclosed hne hends) h

/-! ### Texts and their kinds of tokens -/

/-- The text has tokens of these kinds, wherever it stands. -/
def Reads (cs : List Char) (ks : List TokenKind) : Prop :=
  ∀ position, ∃ tokens, Scans position cs tokens ∧ kinds tokens = ks

namespace Reads

variable {cs : List Char} {ks : List TokenKind}

/-- The empty text has no tokens. -/
theorem nil : Reads [] [] := fun _ => ⟨[], .nil, rfl⟩

/-- White space in front does not change the tokens. -/
theorem blank {c : Char} (hc : Text.isBlank c = true) (h : Reads cs ks) :
    Reads (c :: cs) ks := by
  intro position
  obtain ⟨tokens, htokens, hkinds⟩ := h (position + 1)
  exact ⟨tokens, .blank hc htokens, hkinds⟩

/-- A symbol in front is one more token. -/
theorem symbol {c : Char} {kind : TokenKind} (width : Nat)
    (hsymbol : symbolAt c cs.head? = some (kind, width))
    (h : Reads ((c :: cs).drop width) ks) : Reads (c :: cs) (kind :: ks) := by
  intro position
  obtain ⟨tokens, htokens, rfl⟩ := h (position + width)
  exact ⟨_, .symbol hsymbol htokens, rfl⟩

/-- An opening parenthesis in front is one more token. -/
theorem openParen (h : Reads cs ks) : Reads ('(' :: cs) (.openParen :: ks) :=
  symbol 1 rfl h

/-- A closing parenthesis in front is one more token. -/
theorem closeParen (h : Reads cs ks) : Reads (')' :: cs) (.closeParen :: ks) :=
  symbol 1 rfl h

/-- The operator `&&` in front is one more token. -/
theorem and (h : Reads cs ks) : Reads ('&' :: '&' :: cs) (.and :: ks) :=
  symbol 2 rfl h

/-- The operator `||` in front is one more token. -/
theorem or (h : Reads cs ks) : Reads ('|' :: '|' :: cs) (.or :: ks) :=
  symbol 2 rfl h

/-- An exclamation mark in front is one more token, unless it makes the operator `!=` with what
follows. -/
theorem not (hne : cs.head? ≠ some '=') (h : Reads cs ks) :
    Reads ('!' :: cs) (.not :: ks) :=
  symbol 1 (by simp [symbolAt, hne]) h

/-- A literal text in front of what may stand behind it is one more token. -/
theorem literal {lit : List Char} (hlit : IsLiteral lit) (hrest : Delimits cs)
    (h : Reads cs ks) : Reads (lit ++ cs) (.literal (String.ofList lit) :: ks) := by
  intro position
  obtain ⟨tokens, htokens, rfl⟩ := h (position + lit.length)
  exact ⟨_, htokens.literal_append hlit hrest, rfl⟩

end Reads

end Token

end AgentPipeline
