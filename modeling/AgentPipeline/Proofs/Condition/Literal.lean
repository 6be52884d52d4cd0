import AgentPipeline.Condition.Token
import AgentPipeline.Proofs.Except
import AgentPipeline.Proofs.Text.Trim

/-!
# Where literals end

`Token.literalSpan` walks over the characters of a literal with six accumulators. Three of
them decide where the literal ends: the number of open argument lists, the state of the
quotes, and the last character. This module collects them in a `Cursor` and gives the walk
as one step from character to character: `Cursor.after` is the cursor behind a character,
and `Cursor.Ends` says that the literal ends in front of it. The other three accumulators,
the `Marks`, only say where an error points to.

A cursor **covers** a stretch of text if the literal does not end inside of it. The length
of a literal is then characterised without the walk (`span_eq_ok_iff`): the text is a
stretch that the cursor covers, followed by a place where the literal ends.

The character behind a stretch matters only to the last character of the stretch, which may
begin a two-character operator together with it. `Covers.of_next` says which characters may
stand there instead of another one: none that completes an operator, provided that the old
one did not complete `!=`.
-/

namespace AgentPipeline

namespace Token

/-! ### Symbols -/

/-- A character that opens quotes starts no symbol. -/
theorem symbolAt_of_opens {c : Char} (next : Option Char) (h : Quotes.opens c = true) :
    symbolAt c next = none := by
  have hc : c = '\'' ∨ c = '"' := by simpa [Quotes.opens] using h
  rcases hc with rfl | rfl <;> simp [symbolAt]

/-- White space starts no symbol. -/
theorem symbolAt_of_isBlank {c : Char} (next : Option Char) (h : Text.isBlank c = true) :
    symbolAt c next = none := by
  have hne : c ≠ '(' ∧ c ≠ ')' ∧ c ≠ '&' ∧ c ≠ '|' ∧ c ≠ '!' := by
    refine ⟨?_, ?_, ?_, ?_, ?_⟩ <;> exact Text.ne_of_isBlank h (by decide)
  simp [symbolAt, hne]

/-- Another character may stand behind one that starts no symbol, unless it completes a
symbol or the old one completed `!=`. -/
theorem symbolAt_of_next {c : Char} {next next' : Option Char}
    (h : symbolAt c next = none) (heq : next ≠ some '=') (hand : next' ≠ some '&')
    (hor : next' ≠ some '|') : symbolAt c next' = none := by
  unfold symbolAt at h ⊢
  grind

end Token

/-! ### Cursors -/

/-- What decides where a literal ends. -/
structure Cursor where
  /-- the number of argument lists that are open -/
  depth : Nat
  quotes : Quotes
  /-- the last character of the literal so far -/
  previous : Option Char

/-- The positions that an error about a literal may point to. -/
structure Marks where
  /-- where the outermost open argument list starts -/
  call : Nat
  /-- where the last quotes open -/
  quote : Nat
  /-- where the next character stands -/
  position : Nat

namespace Cursor

/-- The cursor at the start of a literal. -/
def start : Cursor := ⟨0, .outside, none⟩

/-- The cursor behind one more character. -/
def after (s : Cursor) (c : Char) : Cursor where
  depth :=
    if s.quotes ≠ .outside then s.depth
    else if c = '(' then s.depth + 1
    else if c = ')' then s.depth - 1
    else s.depth
  quotes := s.quotes.next c
  previous := some c

/-- The cursor behind a stretch of text. -/
def afterAll (s : Cursor) (cs : List Char) : Cursor := cs.foldl after s

/-- Neither quotes nor argument lists are open. -/
def Closed (s : Cursor) : Prop := s.quotes = .outside ∧ s.depth = 0

instance (s : Cursor) : Decidable s.Closed := inferInstanceAs (Decidable (_ ∧ _))

/-- The literal ends in front of the character `c` with `next` behind it. -/
def Ends (s : Cursor) (c : Char) (next : Option Char) : Prop :=
  s.Closed ∧ ¬(c = '(' ∧ Token.precedesCall s.previous = true) ∧
    (Token.symbolAt c next).isSome = true

instance (s : Cursor) (c : Char) (next : Option Char) : Decidable (s.Ends c next) :=
  inferInstanceAs (Decidable (_ ∧ _))

/-- The literal ends in front of this text. -/
def EndsAt (s : Cursor) : List Char → Prop
  | [] => s.Closed
  | c :: cs => s.Ends c cs.head?

/-- The literal does not end inside of the stretch, with `next` behind the stretch. -/
def Covers (s : Cursor) : List Char → Option Char → Prop
  | [], _ => True
  | c :: cs, next => ¬s.Ends c (cs.head?.or next) ∧ (s.after c).Covers cs next

/-- The length of the literal at the start of a text, counted on from a cursor. -/
def span (s : Cursor) (m : Marks) (cs : List Char) : Except ConditionError Nat :=
  Token.literalSpan s.depth m.call s.quotes m.quote s.previous m.position cs

end Cursor

/-- The marks behind one more character. -/
def Marks.after (m : Marks) (s : Cursor) (c : Char) : Marks where
  call :=
    if s.Closed ∧ c = '(' ∧ Token.precedesCall s.previous = true then m.position else m.call
  quote := if s.quotes = .outside ∧ Quotes.opens c then m.position else m.quote
  position := m.position + 1

namespace Cursor

/-! ### The walk, step by step -/

/-- At the end of the text a literal ends if nothing is open. -/
theorem span_nil_eq_ok_iff {s : Cursor} {m : Marks} {k : Nat} :
    s.span m [] = .ok k ↔ s.Closed ∧ k = 0 := by
  simp only [span, Token.literalSpan, Closed]
  split
  · next h => simp [h]
  · split
    · next h => simp [h]
    · next hq hd => simp_all [eq_comm]

/-- A literal ends in front of a character or goes on behind it. -/
theorem span_cons (s : Cursor) (m : Marks) (c : Char) (cs : List Char) :
    s.span m (c :: cs) =
      if s.Ends c cs.head? then .ok 0
      else (· + 1) <$> (s.after c).span (m.after s c) cs := by
  obtain ⟨depth, quotes, previous⟩ := s
  by_cases hq : quotes = .outside
  · subst hq
    by_cases ho : Quotes.opens c = true
    · have hc : c ≠ '(' ∧ c ≠ ')' := by
        constructor <;> rintro rfl <;> simp [Quotes.opens] at ho
      simp [span, Token.literalSpan, after, Marks.after, Ends, ho, Token.symbolAt_of_opens, hc]
    · by_cases hd : depth = 0
      · subst hd
        by_cases hcall : c = '(' ∧ Token.precedesCall previous = true
        · simp [span, Token.literalSpan, after, Marks.after, Ends, Closed, hcall, Quotes.opens]
        · by_cases hs : (Token.symbolAt c cs.head?).isSome = true
          · simp [span, Token.literalSpan, Ends, Closed, ho, hcall, hs]
          · have hc : c ≠ '(' := by
              rintro rfl
              simp [Token.symbolAt] at hs
            simp [span, Token.literalSpan, after, Marks.after, Ends, Closed, ho, hs, hc]
      · simp [span, Token.literalSpan, after, Marks.after, Ends, Closed, ho, hd]
  · simp [span, Token.literalSpan, after, Marks.after, Ends, Closed, hq]

/-- A literal only ends where nothing is open. -/
theorem EndsAt.closed {s : Cursor} {rest : List Char} (h : s.EndsAt rest) : s.Closed := by
  cases rest with
  | nil => exact h
  | cons c rest => exact h.1

/-- No literal ends in front of `=`. -/
theorem EndsAt.head_ne {s : Cursor} {rest : List Char} (h : s.EndsAt rest) :
    rest.head? ≠ some '=' := by
  cases rest with
  | nil => simp
  | cons c rest =>
      rintro ⟨⟩
      exact absurd h.2.2 (by simp [Token.symbolAt])

/-! ### The length of a literal -/

/-- No text leaves the cursor as it is. -/
@[simp] theorem afterAll_nil (s : Cursor) : s.afterAll [] = s := rfl

/-- The cursor goes over a text from its first character on. -/
@[simp] theorem afterAll_cons (s : Cursor) (c : Char) (cs : List Char) :
    s.afterAll (c :: cs) = (s.after c).afterAll cs := rfl

/-- The cursor goes over two stretches one after the other. -/
theorem afterAll_append (s : Cursor) (a b : List Char) :
    s.afterAll (a ++ b) = (s.afterAll a).afterAll b := List.foldl_append

/-- A cursor covers two stretches if it covers the first, and the cursor behind it the second. -/
theorem covers_append {s : Cursor} {a b : List Char} {next : Option Char} :
    s.Covers (a ++ b) next ↔
      s.Covers a (b.head?.or next) ∧ (s.afterAll a).Covers b next := by
  induction a generalizing s with
  | nil => simp [Covers]
  | cons c a ih =>
      rw [List.cons_append, Covers, Covers, ih, List.head?_append, Option.or_assoc, and_assoc,
        afterAll_cons]

/-- A literal that ends behind a covered stretch has the length of the stretch. -/
theorem span_eq_ok {s : Cursor} {m : Marks} {lit rest : List Char}
    (hcovers : s.Covers lit rest.head?) (hends : (s.afterAll lit).EndsAt rest) :
    s.span m (lit ++ rest) = .ok lit.length := by
  induction lit generalizing s m with
  | nil =>
      cases rest with
      | nil => exact span_nil_eq_ok_iff.mpr ⟨hends, rfl⟩
      | cons c rest =>
          rw [List.nil_append, span_cons]
          exact if_pos hends
  | cons c lit ih =>
      obtain ⟨hc, hcovers⟩ := hcovers
      rw [List.cons_append, span_cons, List.head?_append, if_neg hc, ih hcovers hends]
      rfl

/-- A literal covers its own stretch and ends behind it. -/
theorem exists_of_span_eq_ok {s : Cursor} {m : Marks} {cs : List Char} {k : Nat}
    (h : s.span m cs = .ok k) :
    ∃ lit rest, cs = lit ++ rest ∧ lit.length = k ∧ s.Covers lit rest.head? ∧
      (s.afterAll lit).EndsAt rest := by
  induction cs generalizing s m k with
  | nil =>
      obtain ⟨hclosed, rfl⟩ := span_nil_eq_ok_iff.mp h
      exact ⟨[], [], rfl, rfl, trivial, hclosed⟩
  | cons c cs ih =>
      rw [span_cons] at h
      split at h
      · next hends =>
        obtain rfl : 0 = k := Except.ok.inj h
        exact ⟨[], c :: cs, rfl, rfl, trivial, hends⟩
      · next hc =>
        obtain ⟨k, hk, rfl⟩ := map_eq_ok_iff.mp h
        obtain ⟨lit, rest, rfl, rfl, hcovers, hends⟩ := ih hk
        exact ⟨c :: lit, rest, rfl, rfl, ⟨by rwa [List.head?_append] at hc, hcovers⟩, hends⟩

/-- **The length of a literal**: the text is a covered stretch of that length, followed by
a place where the literal ends. -/
theorem span_eq_ok_iff {s : Cursor} {m : Marks} {cs : List Char} {k : Nat} :
    s.span m cs = .ok k ↔
      ∃ lit rest, cs = lit ++ rest ∧ lit.length = k ∧ s.Covers lit rest.head? ∧
        (s.afterAll lit).EndsAt rest := by
  refine ⟨exists_of_span_eq_ok, ?_⟩
  rintro ⟨lit, rest, rfl, rfl, hcovers, hends⟩
  exact span_eq_ok hcovers hends

/-! ### What stands behind a stretch -/

/-- A covered stretch stays covered if another character stands behind it that completes no
operator, unless the old one completed `!=`. -/
theorem Covers.of_next {s : Cursor} {cs : List Char} {next next' : Option Char}
    (h : s.Covers cs next) (heq : next ≠ some '=') (hand : next' ≠ some '&')
    (hor : next' ≠ some '|') : s.Covers cs next' := by
  induction cs generalizing s with
  | nil => trivial
  | cons c cs ih =>
      obtain ⟨hc, hcs⟩ := h
      refine ⟨?_, ih hcs⟩
      cases cs with
      | cons d cs => exact hc
      | nil =>
          rintro ⟨hclosed, hcall, hsymbol⟩
          refine hc ⟨hclosed, hcall, ?_⟩
          rw [Option.isSome_iff_ne_none] at hsymbol ⊢
          exact fun hnone => hsymbol (Token.symbolAt_of_next hnone heq hand hor)

/-! ### White space behind a stretch -/

/-- White space does not end a literal. -/
theorem not_ends_of_isBlank {s : Cursor} {c : Char} {next : Option Char}
    (h : Text.isBlank c = true) : ¬s.Ends c next := by
  rintro ⟨-, -, hsymbol⟩
  simp [Token.symbolAt_of_isBlank next h] at hsymbol

/-- White space is covered, since no literal ends in it. -/
theorem covers_blanks {s : Cursor} {cs : List Char} {next : Option Char}
    (h : Text.Blanks cs) : s.Covers cs next := by
  induction cs generalizing s with
  | nil => trivial
  | cons c cs ih =>
      rw [Text.blanks_cons] at h
      exact ⟨not_ends_of_isBlank h.1, ih h.2⟩

/-- White space opens and closes nothing, outside of quotes. -/
theorem after_blank_of_closed {s : Cursor} {c : Char} (h : s.Closed)
    (hc : Text.isBlank c = true) : (s.after c).Closed := by
  have hne : c ≠ '(' ∧ c ≠ ')' ∧ c ≠ '\'' ∧ c ≠ '"' := by
    refine ⟨?_, ?_, ?_, ?_⟩ <;> exact Text.ne_of_isBlank hc (by decide)
  simp [Closed, after, h.1, h.2, hne, Quotes.next, Quotes.opens]

/-- White space opens nothing. -/
theorem afterAll_blanks_of_closed {s : Cursor} {cs : List Char} (h : s.Closed)
    (hcs : Text.Blanks cs) : (s.afterAll cs).Closed := by
  induction cs generalizing s with
  | nil => exact h
  | cons c cs ih =>
      rw [Text.blanks_cons] at hcs
      exact ih (after_blank_of_closed h hcs.1) hcs.2

/-- Quotes that opened with one of the characters that open quotes. -/
def Quoted (s : Cursor) : Prop :=
  ∀ q, s.quotes = .inside q ∨ s.quotes = .escaped q → Quotes.opens q = true

/-- A literal starts outside of quotes. -/
theorem quoted_start : start.Quoted := by
  rintro q (h | h) <;> cases h

/-- Quotes are only opened by characters that open them. -/
theorem Quoted.after {s : Cursor} (h : s.Quoted) (c : Char) : (s.after c).Quoted := by
  intro q hq
  simp only [Cursor.after] at hq
  cases hs : s.quotes with
  | outside =>
      rw [hs, Quotes.next] at hq
      split at hq
      · next ho =>
        obtain rfl : c = q := by simpa using hq
        exact ho
      · simp at hq
  | inside q' =>
      have hq' := h q' (.inl hs)
      rw [hs, Quotes.next] at hq
      split at hq
      · obtain rfl : q' = q := by simpa using hq
        exact hq'
      · split at hq
        · simp at hq
        · obtain rfl : q' = q := by simpa using hq
          exact hq'
  | escaped q' =>
      have hq' := h q' (.inr hs)
      rw [hs, Quotes.next] at hq
      obtain rfl : q' = q := by simpa using hq
      exact hq'

/-- The same behind a stretch of text. -/
theorem Quoted.afterAll {s : Cursor} (h : s.Quoted) (cs : List Char) :
    (s.afterAll cs).Quoted := by
  induction cs generalizing s with
  | nil => exact h
  | cons c cs ih => exact ih (h.after c)

/-- White space closes nothing: what is closed behind it was closed in front of it. -/
theorem closed_of_after_blank {s : Cursor} {c : Char} (hs : s.Quoted)
    (hc : Text.isBlank c = true) (h : (s.after c).Closed) : s.Closed := by
  obtain ⟨hquotes, hdepth⟩ := h
  simp only [Cursor.after] at hquotes hdepth
  cases hq : s.quotes with
  | outside =>
      have hne : c ≠ '(' ∧ c ≠ ')' := by
        refine ⟨?_, ?_⟩ <;> exact Text.ne_of_isBlank hc (by decide)
      exact ⟨hq, by simpa [hq, hne] using hdepth⟩
  | inside q =>
      have hne : c ≠ q := by
        rintro rfl
        have ho := hs c (.inl hq)
        rcases (by simpa [Quotes.opens] using ho : c = '\'' ∨ c = '"') with rfl | rfl <;>
          exact absurd hc (by decide)
      rw [hq, Quotes.next, if_neg hne] at hquotes
      split at hquotes <;> simp at hquotes
  | escaped q => simp [hq, Quotes.next] at hquotes

/-- White space closes nothing. -/
theorem closed_of_afterAll_blanks {s : Cursor} {cs : List Char} (hs : s.Quoted)
    (hcs : Text.Blanks cs) (h : (s.afterAll cs).Closed) : s.Closed := by
  induction cs generalizing s with
  | nil => exact h
  | cons c cs ih =>
      rw [Text.blanks_cons] at hcs
      exact closed_of_after_blank hs hcs.1 (ih (hs.after c) hcs.2 h)

end Cursor

end AgentPipeline
