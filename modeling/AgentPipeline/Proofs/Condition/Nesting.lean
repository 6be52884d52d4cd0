import AgentPipeline.Proofs.Condition.SpacedScan

/-!
# Nesting of parentheses

The **nesting** of a stretch of text is the number of parentheses it opens less the number of those
it closes, where quotes keep a parenthesis out of account. A `(` and a `)` behind it match if what
stands between them is balanced (`Matches`).

A text that is cut into tokens has the nesting of its tokens, and within a token it is never nested
less than in front of it (`Spells`): what a literal closes it has opened itself. So whether a
parenthesis of the text has a match can be seen from the tokens. Where the scanner gives up, it
blames a quote or a call that is open to the end of the text (`Blames`).
-/

namespace AgentPipeline

open Quotes (outside)

variable {q : Quotes} {c : Char} {a b cs text : List Char} {p : Nat}

/-! ### Prefixes -/

/-- A list of one element has two prefixes. -/
theorem eq_nil_or_eq_of_prefix_singleton {α : Type} {x : α} {front : List α}
    (h : front <+: [x]) : front = [] ∨ front = [x] := by
  rcases List.prefix_cons_iff.mp h with rfl | ⟨front, rfl, hnil⟩
  · exact .inl rfl
  · exact .inr (by rw [List.prefix_nil.mp hnil])

/-- A prefix ends in the first of two lists, or in the second one. -/
theorem prefix_append_cases {α : Type} {xs ys front : List α} (h : front <+: xs ++ ys) :
    front <+: xs ∨ ∃ more, front = xs ++ more ∧ more <+: ys := by
  rcases List.prefix_or_prefix_of_prefix h (List.prefix_append xs ys) with hfront | ⟨more, rfl⟩
  · exact .inl hfront
  · exact .inr ⟨more, rfl, (List.prefix_append_right_inj xs).mp h⟩

/-! ### Nesting of a text -/

/-- What a character adds to the nesting. -/
def parenWeight (q : Quotes) (c : Char) : Int :=
  if q = outside then (if c = '(' then 1 else if c = ')' then -1 else 0) else 0

/-- The parentheses that a text opens less those that it closes. -/
def nesting (q : Quotes) : List Char → Int
  | [] => 0
  | c :: cs => parenWeight q c + nesting (q.next c) cs

/-- The nesting of two stretches adds up, with the quotes that the first one leaves open. -/
theorem nesting_append (q : Quotes) (a b : List Char) :
    nesting q (a ++ b) = nesting q a + nesting (q.after a) b := by
  induction a generalizing q with
  | nil => exact (Int.zero_add _).symm
  | cons c a ih =>
      rw [List.cons_append, nesting, nesting, ih, Quotes.after_cons, Int.add_assoc]

/-- Every parenthesis that the text closes has been opened in it. -/
def ClosesOwn (cs : List Char) : Prop :=
  ∀ front, front <+: cs → 0 ≤ nesting outside front

/-- As many parentheses are opened as closed, and none is closed before it is opened. -/
structure Balanced (cs : List Char) : Prop where
  quotes : outside.after cs = outside
  nesting_eq : nesting outside cs = 0
  closesOwn : ClosesOwn cs

/-- A text up to a place outside of quotes. -/
structure UpTo (front : List Char) (p : Nat) : Prop where
  length : front.length = p
  quotes : outside.after front = outside

/-- The parenthesis `(` at the place `p` and the parenthesis `)` at the place `r` belong
together. -/
def Matches (text : List Char) (p r : Nat) : Prop :=
  ∃ front inner behind, text = front ++ '(' :: (inner ++ ')' :: behind) ∧ UpTo front p ∧
    p + 1 + inner.length = r ∧ Balanced inner

/-- A `(` outside of quotes that no `)` belongs to. -/
def UnmatchedOpen (text : List Char) (p : Nat) : Prop :=
  (∃ front behind, text = front ++ '(' :: behind ∧ UpTo front p) ∧ ∀ r, ¬Matches text p r

/-- A `)` outside of quotes that no `(` belongs to. -/
def UnmatchedClose (text : List Char) (p : Nat) : Prop :=
  (∃ front behind, text = front ++ ')' :: behind ∧ UpTo front p) ∧ ∀ r, ¬Matches text r p

/-- A `)` outside of quotes in front of which, white space apart, the `(` stands that belongs to
it. -/
def ClosesNothing (text : List Char) (p : Nat) : Prop :=
  ∃ front blanks behind, text = front ++ '(' :: (blanks ++ ')' :: behind) ∧
    Text.Blanks blanks ∧ UpTo (front ++ '(' :: blanks) p ∧ Matches text front.length p

/-- What stands behind a `(` without a match closes only what it has opened. -/
theorem unmatchedOpen_of_closesOwn {front behind : List Char}
    (hfront : outside.after front = outside) (hbehind : ClosesOwn behind) :
    UnmatchedOpen (front ++ '(' :: behind) front.length := by
  refine ⟨⟨front, behind, rfl, rfl, hfront⟩, ?_⟩
  rintro r ⟨front', inner, behind', htext, hupTo, -, hinner⟩
  obtain ⟨rfl, hrest⟩ := List.append_inj htext hupTo.length.symm
  obtain rfl : behind = inner ++ ')' :: behind' := (List.cons.inj hrest).2
  have hprefix : inner ++ [')'] <+: inner ++ ')' :: behind' := ⟨behind', by simp⟩
  have hnesting := hbehind _ hprefix
  rw [nesting_append, hinner.nesting_eq, hinner.quotes] at hnesting
  exact absurd hnesting (by decide)

/-- A `)` has no match if what stands in front of it is balanced. -/
theorem unmatchedClose_of_balanced {front behind : List Char} (hfront : Balanced front) :
    UnmatchedClose (front ++ ')' :: behind) front.length := by
  refine ⟨⟨front, behind, rfl, rfl, hfront.quotes⟩, ?_⟩
  rintro r ⟨front', inner, behind', htext, hupTo, hlength, hinner⟩
  have htext' : front ++ ')' :: behind = (front' ++ '(' :: inner) ++ ')' :: behind' := by
    rw [htext]
    simp
  obtain ⟨rfl, -⟩ := List.append_inj htext' (by
    rw [List.length_append, List.length_cons, hupTo.length]
    omega)
  have hsum := hfront.nesting_eq
  have hopen : outside.next '(' = outside := rfl
  rw [nesting_append, hupTo.quotes, nesting, hopen, hinner.nesting_eq] at hsum
  have hnonneg := hfront.closesOwn front' (List.prefix_append _ _)
  have hweight : parenWeight outside '(' = 1 := rfl
  omega

/-! ### Nesting of tokens -/

/-- What a token adds to the nesting. -/
def TokenKind.weight : TokenKind → Int
  | .openParen => 1
  | .closeParen => -1
  | _ => 0

/-- The parentheses that some tokens open less those that they close. -/
def kindsNesting : List TokenKind → Int
  | [] => 0
  | kind :: ks => kind.weight + kindsNesting ks

/-- The first token adds its weight. -/
theorem kindsNesting_cons (kind : TokenKind) (ks : List TokenKind) :
    kindsNesting (kind :: ks) = kind.weight + kindsNesting ks := rfl

/-- The nesting of two sequences of tokens adds up. -/
theorem kindsNesting_append (ks ks' : List TokenKind) :
    kindsNesting (ks ++ ks') = kindsNesting ks + kindsNesting ks' := by
  induction ks with
  | nil => exact (Int.zero_add _).symm
  | cons kind ks ih =>
      rw [List.cons_append, kindsNesting_cons, ih, kindsNesting_cons, Int.add_assoc]

/-- **A stretch of text spells some tokens** as far as parentheses go: it has their nesting, and
nowhere in it is the nesting less than it is behind some of them. -/
structure Spells (cs : List Char) (ks : List TokenKind) : Prop where
  quotes : outside.after cs = outside
  nesting_eq : nesting outside cs = kindsNesting ks
  bound : ∀ front, front <+: cs → ∃ ks', ks' <+: ks ∧ kindsNesting ks' ≤ nesting outside front

namespace Spells

variable {ks ks' : List TokenKind}

/-- No text spells no tokens. -/
theorem nil : Spells [] [] := by
  refine ⟨rfl, rfl, fun front hfront => ⟨[], List.nil_prefix, ?_⟩⟩
  rw [List.prefix_nil.mp hfront]
  exact Int.le_refl _

/-- Two stretches side by side spell the tokens of both. -/
theorem append (ha : Spells a ks) (hb : Spells b ks') : Spells (a ++ b) (ks ++ ks') := by
  refine ⟨?_, ?_, fun front hfront => ?_⟩
  · rw [Quotes.after_append, ha.quotes, hb.quotes]
  · rw [nesting_append, ha.nesting_eq, ha.quotes, hb.nesting_eq, kindsNesting_append]
  · rcases prefix_append_cases hfront with hfront | ⟨more, rfl, hmore⟩
    · obtain ⟨ks'', hks, hle⟩ := ha.bound front hfront
      exact ⟨ks'', hks.trans (List.prefix_append _ _), hle⟩
    · obtain ⟨ks'', hks, hle⟩ := hb.bound more hmore
      refine ⟨ks ++ ks'', (List.prefix_append_right_inj ks).mpr hks, ?_⟩
      rw [nesting_append, kindsNesting_append, ha.nesting_eq, ha.quotes]
      omega

/-- A stretch in which nothing is opened or closed on balance, like white space. -/
theorem of_balanced (h : Balanced cs) (hks : kindsNesting ks = 0) : Spells cs ks :=
  ⟨h.quotes, h.nesting_eq.trans hks.symm, fun front hfront =>
    ⟨[], List.nil_prefix, h.closesOwn front hfront⟩⟩

/-- Tokens that nowhere close more than they opened stand in a text of which the same is true. -/
theorem closesOwn (h : Spells cs ks) (hks : ∀ ks', ks' <+: ks → 0 ≤ kindsNesting ks') :
    ClosesOwn cs := by
  intro front hfront
  obtain ⟨ks', hprefix, hle⟩ := h.bound front hfront
  exact Int.le_trans (hks ks' hprefix) hle

/-- A stretch is balanced if its tokens are. -/
theorem balanced (h : Spells cs ks) (hsum : kindsNesting ks = 0)
    (hks : ∀ ks', ks' <+: ks → 0 ≤ kindsNesting ks') : Balanced cs :=
  ⟨h.quotes, h.nesting_eq.trans hsum, h.closesOwn hks⟩

end Spells

/-! ### Stretches of the scanner -/

/-- Only parentheses have a weight. -/
theorem parenWeight_eq_zero (hopen : c ≠ '(') (hclose : c ≠ ')') : parenWeight q c = 0 := by
  simp [parenWeight, hopen, hclose]

/-- No text is balanced. -/
theorem balanced_nil : Balanced [] :=
  ⟨rfl, rfl, fun front hfront => by rw [List.prefix_nil.mp hfront]; exact Int.le_refl _⟩

/-- A character that is neither a parenthesis nor a quote. -/
theorem balanced_singleton (hnext : outside.next c = outside) (hopen : c ≠ '(') (hclose : c ≠ ')') :
    Balanced [c] := by
  have hnesting : nesting outside [c] = 0 := by
    rw [nesting, parenWeight_eq_zero hopen hclose]
    rfl
  refine ⟨hnext, hnesting, fun front hfront => ?_⟩
  rcases eq_nil_or_eq_of_prefix_singleton hfront with rfl | rfl
  · exact Int.le_refl _
  · exact Int.le_of_eq hnesting.symm

/-- White space spells no tokens. -/
theorem spells_blank (hc : Text.isBlank c = true) : Spells [c] [] := by
  refine .of_balanced (balanced_singleton (Quotes.next_blank hc) ?_ ?_) rfl
  · exact Text.ne_of_isBlank hc (by decide)
  · exact Text.ne_of_isBlank hc (by decide)

/-- A parenthesis spells itself. -/
theorem spells_paren {kind : TokenKind} {width : Nat} {next : Option Char}
    (h : Token.symbolAt c next = some (kind, width)) (hc : c = '(' ∨ c = ')') :
    Spells [c] [kind] := by
  rcases hc with rfl | rfl
  · obtain ⟨rfl, -⟩ := Prod.mk.inj (Option.some.inj h)
    refine ⟨rfl, rfl, fun front hfront => ?_⟩
    rcases eq_nil_or_eq_of_prefix_singleton hfront with rfl | rfl
    · exact ⟨[], List.nil_prefix, Int.le_refl _⟩
    · exact ⟨[], List.nil_prefix, by decide⟩
  · obtain ⟨rfl, -⟩ := Prod.mk.inj (Option.some.inj h)
    refine ⟨rfl, rfl, fun front hfront => ?_⟩
    rcases eq_nil_or_eq_of_prefix_singleton hfront with rfl | rfl
    · exact ⟨[], List.nil_prefix, Int.le_refl _⟩
    · exact ⟨[.closeParen], List.prefix_refl _, by decide⟩

/-- A symbol spells its token. -/
theorem spells_symbol {kind : TokenKind} {width : Nat}
    (h : Token.symbolAt c cs.head? = some (kind, width)) :
    Spells ((c :: cs).take width) [kind] := by
  have hnext := (Token.not_blank_of_symbolAt h).2
  by_cases hc : c = '(' ∨ c = ')'
  · have hwidth : width = 1 := by
      unfold Token.symbolAt at h
      grind
    rw [hwidth]
    exact spells_paren h hc
  · rw [not_or] at hc
    have hweight : kindsNesting [kind] = 0 := by
      unfold Token.symbolAt at h
      grind [kindsNesting, TokenKind.weight]
    have hsingle := balanced_singleton hnext hc.1 hc.2
    rcases Token.symbolAt_width_cases h with rfl | ⟨rfl, hhead⟩
    · exact .of_balanced hsingle hweight
    · cases cs with
      | nil => cases hhead
      | cons d cs =>
          obtain rfl := Option.some.inj hhead
          have hfirst : Spells [d] [] := .of_balanced hsingle rfl
          exact hfirst.append (.of_balanced hsingle hweight)

namespace Cursor

/-- Within a literal no parenthesis is closed that is not open. -/
theorem depth_after {s : Cursor} {next : Option Char} (h : ¬s.Ends c next) :
    ((s.after c).depth : Int) = s.depth + parenWeight s.quotes c := by
  by_cases hquotes : s.quotes = outside
  · by_cases hopen : c = '('
    · subst hopen
      simp [after, parenWeight, hquotes]
    · by_cases hclose : c = ')'
      · subst hclose
        have hdepth : s.depth ≠ 0 := fun hdepth =>
          h ⟨⟨hquotes, hdepth⟩, by simp, by simp [Token.symbolAt]⟩
        simp [after, parenWeight, hquotes]
        omega
      · simp [after, parenWeight, hquotes, hopen, hclose]
  · simp [after, parenWeight, hquotes]

/-- Along a literal the number of open argument lists is the nesting, which is never less than in
front of it. -/
theorem depth_of_covers {s : Cursor} {next : Option Char} (h : s.Covers cs next) :
    ((s.afterAll cs).depth : Int) = s.depth + nesting s.quotes cs ∧
      ∀ front, front <+: cs → 0 ≤ s.depth + nesting s.quotes front := by
  induction cs generalizing s with
  | nil =>
      refine ⟨(Int.add_zero _).symm, fun front hfront => ?_⟩
      rw [List.prefix_nil.mp hfront, nesting]
      omega
  | cons c cs ih =>
      obtain ⟨hends, hcovers⟩ := h
      obtain ⟨hdepth, hfronts⟩ := ih hcovers
      have hstep := depth_after hends
      have hquotes : (s.after c).quotes = s.quotes.next c := rfl
      rw [hquotes] at hdepth hfronts
      refine ⟨?_, fun front hfront => ?_⟩
      · rw [afterAll_cons, hdepth, hstep, nesting, Int.add_assoc]
      · rcases List.prefix_cons_iff.mp hfront with rfl | ⟨front, rfl, hrest⟩
        · rw [nesting]
          omega
        · have hle := hfronts front hrest
          rw [hstep] at hle
          rw [nesting]
          omega

end Cursor

/-- A literal spells one token of weight zero, as it closes only what it has opened. -/
theorem spells_literal {lit : List Char} {next : Option Char} (text : String)
    (hcovers : Cursor.start.Covers lit next) (hclosed : (Cursor.start.afterAll lit).Closed) :
    Spells lit [.literal text] := by
  obtain ⟨hdepth, hfronts⟩ := Cursor.depth_of_covers hcovers
  rw [hclosed.2] at hdepth
  refine .of_balanced ⟨?_, ?_, fun front hfront => ?_⟩ rfl
  · exact (Token.quotes_afterAll Cursor.start lit).symm.trans hclosed.1
  · simpa [Cursor.start] using hdepth.symm
  · simpa [Cursor.start] using hfronts front hfront

/-! ### Scanned texts -/

namespace Token

variable {position : Nat} {before behind tokens : List Token} {token : Token}

/-- A symbol is no wider than what is left of the text. -/
theorem width_le_of_symbolAt {kind : TokenKind} {width : Nat}
    (h : symbolAt c cs.head? = some (kind, width)) : width ≤ (c :: cs).length := by
  rcases symbolAt_width_cases h with rfl | ⟨rfl, hhead⟩
  · simp
  · cases cs with
    | nil => cases hhead
    | cons => simp

/-- **A scanned text, cut between two tokens.** -/
theorem Scans.exists_append (h : Scans position cs (before ++ behind)) :
    ∃ a b, cs = a ++ b ∧ Spells a (kinds before) ∧ Scans (position + a.length) b behind := by
  generalize htokens : before ++ behind = tokens at h
  -- by the way in which the text is scanned; the border lies in front of a token
  induction h generalizing before with
  | nil =>
      obtain ⟨rfl, rfl⟩ := List.append_eq_nil_iff.mp htokens
      exact ⟨[], [], rfl, .nil, .nil⟩
  | @blank position c cs tokens hc _ ih =>
      obtain ⟨a, b, rfl, hspells, hscans⟩ := ih htokens
      refine ⟨c :: a, b, rfl, (spells_blank hc).append hspells, ?_⟩
      rwa [List.length_cons, Nat.add_comm a.length, ← Nat.add_assoc]
  | @symbol position c cs kind width tokens hsymbol hrest ih =>
      cases before with
      | nil =>
          obtain rfl := htokens
          exact ⟨[], c :: cs, rfl, .nil, .symbol hsymbol hrest⟩
      | cons token before =>
          obtain ⟨rfl, htail⟩ := List.cons.inj htokens
          obtain ⟨a, b, hdrop, hspells, hscans⟩ := ih htail
          have htext : c :: cs = (c :: cs).take width ++ a ++ b := by
            rw [List.append_assoc, ← hdrop, List.take_append_drop]
          refine ⟨(c :: cs).take width ++ a, b, htext, (spells_symbol hsymbol).append hspells, ?_⟩
          rwa [List.length_append, List.length_take_of_le (width_le_of_symbolAt hsymbol),
            ← Nat.add_assoc]
  | @literal position lit rest tokens hne hhead hcovers hends hrest ih =>
      cases before with
      | nil =>
          obtain rfl := htokens
          exact ⟨[], lit ++ rest, rfl, .nil, .literal hne hhead hcovers hends hrest⟩
      | cons token before =>
          obtain ⟨rfl, htail⟩ := List.cons.inj htokens
          obtain ⟨a, b, rfl, hspells, hscans⟩ := ih htail
          refine ⟨lit ++ a, b, (List.append_assoc _ _ _).symm,
            (spells_literal _ hcovers hends.closed).append hspells, ?_⟩
          rwa [List.length_append, ← Nat.add_assoc]

/-- Where there are no tokens there is only white space. -/
theorem Scans.blanks (h : Scans position cs []) : Text.Blanks cs := by
  generalize htokens : [] = tokens at h
  induction h with
  | nil => exact Text.blanks_nil
  | blank hc _ ih => exact Text.blanks_cons.mpr ⟨hc, ih htokens⟩
  | symbol | literal => cases htokens

/-- A stretch of white space spells no tokens. -/
theorem spells_blanks (h : Text.Blanks cs) : Spells cs [] := by
  induction cs with
  | nil => exact .nil
  | cons c cs ih =>
      rw [Text.blanks_cons] at h
      exact (spells_blank h.1).append (ih h.2)

/-- A scanned text has the nesting of its tokens. -/
theorem Scans.spells (h : Scans position cs tokens) : Spells cs (kinds tokens) := by
  rw [← List.append_nil tokens] at h
  obtain ⟨a, b, rfl, hspells, hscans⟩ := h.exists_append
  simpa using hspells.append (spells_blanks hscans.blanks)

/-- A parenthesis among the tokens stands in the text, behind white space. -/
theorem Scans.exists_paren {paren : Char}
    (hkind : paren = '(' ∧ token.kind = .openParen ∨ paren = ')' ∧ token.kind = .closeParen)
    (h : Scans position cs (token :: tokens)) :
    ∃ blanks rest, cs = blanks ++ paren :: rest ∧ Text.Blanks blanks ∧
      token.position = position + blanks.length ∧ Scans (token.position + 1) rest tokens := by
  generalize htokens : token :: tokens = tokens' at h
  induction h with
  | nil => cases htokens
  | @blank position c cs tokens' hc _ ih =>
      obtain ⟨blanks, rest, rfl, hblanks, hposition, hscans⟩ := ih htokens
      refine ⟨c :: blanks, rest, rfl, Text.blanks_cons.mpr ⟨hc, hblanks⟩, ?_, hscans⟩
      rw [hposition, List.length_cons]
      omega
  | @symbol position c cs kind width tokens' hsymbol hrest ih =>
      obtain ⟨rfl, rfl⟩ := List.cons.inj htokens
      have hparen : c = paren ∧ width = 1 := by
        unfold symbolAt at hsymbol
        grind
      obtain ⟨rfl, rfl⟩ := hparen
      exact ⟨[], cs, rfl, Text.blanks_nil, rfl, hrest⟩
  | literal =>
      obtain ⟨rfl, -⟩ := List.cons.inj htokens
      simp at hkind

end Token

/-! ### Where the scanner gives up -/

/-- **What the scanner blames**: a quote, or the parenthesis of a call that is open to the end of
the text. -/
inductive Blames (q : Quotes) (position : Nat) (cs : List Char) : ConditionError → Prop
  | quote {a b : List Char} {c : Char} : cs = a ++ c :: b → q.after a = outside →
      Quotes.opens c = true → Blames q position cs (.unterminatedString (position + a.length))
  | call {a b : List Char} : cs = a ++ '(' :: b → q.after a = outside → ClosesOwn b →
      Blames q position cs (.missingClosingParen (position + a.length))

/-- What is blamed in a text is blamed behind any front as well. -/
theorem Blames.append (front : List Char) {position : Nat} {e : ConditionError}
    (h : Blames (q.after front) (position + front.length) cs e) :
    Blames q position (front ++ cs) e := by
  cases h with
  | @quote a b c hcs ha hc =>
      rw [Nat.add_assoc, ← List.length_append]
      exact .quote (by rw [hcs, List.append_assoc]) (by rw [Quotes.after_append, ha]) hc
  | @call a b hcs ha hb =>
      rw [Nat.add_assoc, ← List.length_append]
      exact .call (by rw [hcs, List.append_assoc]) (by rw [Quotes.after_append, ha]) hb

/-- What is blamed in a text is blamed behind one more character. -/
theorem Blames.cons {position : Nat} {e : ConditionError}
    (h : Blames (q.next c) (position + 1) cs e) : Blames q position (c :: cs) e :=
  Blames.append [c] h

namespace Cursor

/-- An argument list that is open is never closed again. -/
def StaysOpen (s : Cursor) (cs : List Char) : Prop :=
  ∀ front, front <+: cs → 0 < s.depth + nesting s.quotes front

/-- An argument list that is open behind a character, but does not open at it, is open in front of
it. -/
theorem StaysOpen.cons {s : Cursor} (hends : ¬s.Ends c cs.head?)
    (hcall : ¬(s.Closed ∧ c = '(' ∧ Token.precedesCall s.previous = true))
    (h : (s.after c).StaysOpen cs) : s.StaysOpen (c :: cs) := by
  have hstep := depth_after hends
  intro front hfront
  rcases List.prefix_cons_iff.mp hfront with rfl | ⟨front, rfl, hrest⟩
  · have hpositive := h [] List.nil_prefix
    rw [nesting, Int.add_zero] at hpositive ⊢
    by_cases hparen : s.quotes = outside ∧ c = '('
    · obtain ⟨hquotes, rfl⟩ := hparen
      by_contra hzero
      have hclosed : s.Closed := ⟨hquotes, by omega⟩
      exact hends ⟨hclosed, fun hprevious => hcall ⟨hclosed, hprevious⟩, rfl⟩
    · have hweight : parenWeight s.quotes c ≤ 0 := by
        unfold parenWeight
        grind
      omega
  · have hpositive := h front hrest
    have hquotes : (s.after c).quotes = s.quotes.next c := rfl
    rw [hstep, hquotes] at hpositive
    rw [nesting]
    omega

/-- Where a literal does not end, the blame is on something in the rest of the text, on the last
quotes, or on the outermost argument list that is open already. -/
theorem blames_of_span_eq_error {s : Cursor} {m : Marks} {e : ConditionError}
    (h : s.span m cs = .error e) : Blames s.quotes m.position cs e ∨
      (e = .unterminatedString m.quote ∧ s.quotes ≠ outside) ∨
      (e = .missingClosingParen m.call ∧ s.StaysOpen cs) := by
  induction cs generalizing s m with
  | nil =>
      rw [span, Token.literalSpan] at h
      split at h
      · next hquotes => exact .inr (.inl ⟨(Except.error.inj h).symm, hquotes⟩)
      · split at h
        · next hdepth =>
          refine .inr (.inr ⟨(Except.error.inj h).symm, fun front hfront => ?_⟩)
          rw [List.prefix_nil.mp hfront, nesting]
          omega
        · cases h
  | cons c cs ih =>
      rw [span_cons] at h
      split at h
      · cases h
      · next hends =>
        rcases ih (map_eq_error_iff.mp h) with hblames | ⟨rfl, hquotes⟩ | ⟨rfl, hopen⟩
        · exact .inl hblames.cons
        -- outside of quotes the mark is the place of the last quote that opened
        · by_cases houtside : s.quotes = outside
          · -- the quotes open at this very character
            have hopens : Quotes.opens c = true := by
              by_contra hopens
              exact hquotes (by simp [after, houtside, Quotes.next, hopens])
            have hquote : (m.after s c).quote = m.position := if_pos ⟨houtside, hopens⟩
            rw [hquote]
            exact .inl (.quote (a := []) rfl houtside hopens)
          · have hquote : (m.after s c).quote = m.quote := if_neg fun h => houtside h.1
            exact .inr (.inl ⟨by rw [hquote], houtside⟩)
        · by_cases hcall : s.Closed ∧ c = '(' ∧ Token.precedesCall s.previous = true
          · -- the argument list opens at this very character
            have hmark : (m.after s c).call = m.position := if_pos hcall
            obtain ⟨hclosed, rfl, -⟩ := hcall
            rw [hmark]
            refine .inl (.call (a := []) rfl hclosed.1 fun front hfront => ?_)
            have hpositive := hopen front hfront
            simp only [after, hclosed.1, hclosed.2, Quotes.next, Quotes.opens] at hpositive
            simp at hpositive
            omega
          · have hmark : (m.after s c).call = m.call := if_neg hcall
            refine .inr (.inr ⟨by rw [hmark], hopen.cons hends hcall⟩)

end Cursor

namespace Token

/-- **Where the scanner gives up** a quote or a call is open to the end of the text. -/
theorem blames_of_scanFrom {position : Nat} {e : ConditionError}
    (h : scanFrom 0 position cs = .error e) : Blames outside position cs e := by
  -- every token shortens what is left to scan
  induction hn : cs.length using Nat.strong_induction_on generalizing position cs with
  | _ n ih =>
  subst hn
  cases cs with
  | nil => cases h
  | cons c cs =>
      by_cases hblank : Text.isBlank c = true
      · rw [scanFrom_blank hblank] at h
        exact .cons ((Quotes.next_blank hblank).symm ▸ ih _ (by simp) h rfl)
      · cases hsymbol : symbolAt c cs.head? with
        | some symbol =>
            obtain ⟨kind, width⟩ := symbol
            rw [scanFrom_symbol hsymbol, map_eq_error_iff] at h
            have hwidth := symbolAt_width hsymbol
            have hle := width_le_of_symbolAt hsymbol
            have hblames := ih _ (by rw [List.length_drop]; omega) h rfl
            rw [← List.take_append_drop width (c :: cs)]
            refine .append _ ?_
            rwa [(spells_symbol hsymbol).quotes, List.length_take_of_le hle]
        | none =>
            rw [Bool.not_eq_true] at hblank
            cases hspan : Cursor.start.span ⟨0, 0, position⟩ (c :: cs) with
            | error e' =>
                rw [scanFrom, if_neg (by simp [hblank]), hsymbol] at h
                have hspan' : literalSpan 0 0 .outside 0 none position (c :: cs) = .error e' :=
                  hspan
                simp only [hspan'] at h
                obtain rfl : e' = e := Except.error.inj h
                rcases Cursor.blames_of_span_eq_error hspan with hblames | ⟨-, hne⟩ | ⟨-, hopen⟩
                · exact hblames
                · exact absurd rfl hne
                · exact absurd (hopen [] List.nil_prefix) (by decide)
            | ok length =>
                obtain ⟨lit, rest, heq, rfl, hcovers, hends⟩ := Cursor.exists_of_span_eq_ok hspan
                have hne : lit ≠ [] := by
                  rintro rfl
                  obtain rfl : c :: cs = rest := heq
                  exact not_ends_start hsymbol hends
                have hpos := List.length_pos_of_ne_nil hne
                rw [scanFrom_literal hblank hsymbol hspan hpos, map_eq_error_iff, heq,
                  List.drop_left] at h
                rw [heq] at ih ⊢
                refine .append _ ?_
                rw [(spells_literal "" hcovers hends.closed).quotes]
                exact ih _ (by rw [List.length_append]; omega) h rfl

end Token

end AgentPipeline
