import AgentPipeline.Proofs.Condition.Scan

/-!
# Scanning by position

`Token.scan` takes characters from the front of a list, so it cannot look at a place where there is
none. The same scanner can leave the text in one piece and walk over it with a position: it looks at
the character there, jumps behind strings and behind the arguments of a call, counts the parentheses
that are open in between, and cuts the pieces of a literal out of the text. Such a scanner may go
wrong in ways that have nothing to do with what the text says. It may look outside of the text, cut
out a stretch that is none, count down from zero, or stay where it is for ever.

In this module each of these is a **fault** that ends the scanning. `charAt`, `stretch` and
`decrement` check what they are asked for, and a round of a loop goes on only from a position behind
the one where it began (`advance`), which is also why the loops end.

No text leads to a fault: the scanner by position returns what `Token.scan` returns (`scan_eq`). The
proof follows the loops. Each of them **skips** a stretch of a literal: the length of the literal
from the start of the stretch is that from its end and the length of the stretch in between
(`Skips`).
-/

namespace AgentPipeline

/-! ### Marks that do not matter -/

namespace Cursor

variable {s : Cursor} {c : Char}

/-- Outside of quotes only an opening quote changes the state of the quotes. -/
theorem quotes_after_of_not_opens (hs : s.quotes = .outside) (hc : ¬Quotes.opens c = true) :
    (s.after c).quotes = .outside := by
  simp only [after, hs, Quotes.next]
  exact if_neg hc

/-- Only a call opens the first parenthesis of a literal: any other one ends it. -/
theorem depth_after_of_not_ends {next : Option Char} (hs : s.depth = 0) (hends : ¬s.Ends c next)
    (hcall : ¬(s.Closed ∧ c = '(' ∧ Token.precedesCall s.previous = true)) :
    (s.after c).depth = 0 := by
  by_cases hopen : s.quotes = .outside ∧ c = '('
  · obtain ⟨hquotes, rfl⟩ := hopen
    have hclosed : s.Closed := ⟨hquotes, hs⟩
    exact absurd ⟨hclosed, fun h => hcall ⟨hclosed, h⟩, rfl⟩ hends
  · simp only [after, hs]
    split
    · rfl
    · next hquotes => simp_all

/-- The marks of quotes and calls that are not open make no difference. -/
theorem span_congr {m m' : Marks} {cs : List Char} (hposition : m.position = m'.position)
    (hquote : s.quotes ≠ .outside → m.quote = m'.quote)
    (hcall : s.depth ≠ 0 → m.call = m'.call) : s.span m cs = s.span m' cs := by
  induction cs generalizing s m m' with
  | nil =>
      simp only [span, Token.literalSpan]
      split
      · next h => rw [hquote h]
      · split
        · next h => rw [hcall h]
        · rfl
  | cons c cs ih =>
      rw [span_cons, span_cons]
      split
      · rfl
      · next hends =>
        congr 1
        refine ih (congrArg (· + 1) hposition) (fun h => ?_) fun h => ?_
        · by_cases hopens : s.quotes = .outside ∧ Quotes.opens c = true
          · simp only [Marks.after, if_pos hopens, hposition]
          · have hs : s.quotes ≠ .outside := fun hs =>
              h (quotes_after_of_not_opens hs fun hc => hopens ⟨hs, hc⟩)
            simp only [Marks.after, if_neg hopens, hquote hs]
        · by_cases hopens : s.Closed ∧ c = '(' ∧ Token.precedesCall s.previous = true
          · simp only [Marks.after, if_pos hopens, hposition]
          · have hs : s.depth ≠ 0 := fun hs => h (depth_after_of_not_ends hs hends hopens)
            simp only [Marks.after, if_neg hopens, hcall hs]

end Cursor

namespace Guarded

/-! ### Faults -/

/-- The ways in which a reader that works with positions can go wrong. -/
inductive Fault where
  /-- there is no character at this position -/
  | outOfRange (position : Nat)
  /-- from the one position to the other there is no stretch of the text -/
  | noStretch (start stop : Nat)
  /-- a count goes below zero at this position -/
  | belowZero (position : Nat)
  /-- a step ends where it began, or in front of it -/
  | stalled (position : Nat)
  /-- no case is provided for what stands at this position -/
  | unreachable (position : Nat)
  deriving Repr, DecidableEq, Inhabited

/-- What ends the reading of a text early: an error in the text, or a fault of the reader. -/
inductive Halt where
  | error (e : ConditionError)
  | fault (f : Fault)
  deriving Repr, DecidableEq, Inhabited

/-- The character at a position. -/
def charAt (cs : List Char) (i : Nat) : Except Halt Char :=
  match cs[i]? with
  | some c => .ok c
  | none => .error (.fault (.outOfRange i))

/-- The characters from one position up to another. -/
def stretch (cs : List Char) (start stop : Nat) : Except Halt (List Char) :=
  if start ≤ stop ∧ stop ≤ cs.length then .ok ((cs.drop start).take (stop - start))
  else .error (.fault (.noStretch start stop))

/-- The count without one. -/
def decrement (count position : Nat) : Except Halt Nat :=
  match count with
  | 0 => .error (.fault (.belowZero position))
  | count + 1 => .ok count

/-- The position `j`, if it lies behind `i`. -/
def advance (i j : Nat) : Except Halt { j : Nat // i < j } :=
  if h : i < j then .ok ⟨j, h⟩ else .error (.fault (.stalled i))

/-! ### The scanner -/

/-- The position behind the quote that closes the string from `start`, looked for from `i` on. -/
def closeQuote (cs : List Char) (quote : Char) (start i : Nat) : Except Halt Nat :=
  if i < cs.length then do
    let c ← charAt cs i
    -- the character behind a backslash is not looked at, and need not exist
    if c = '\\' then closeQuote cs quote start (i + 2)
    else if c = quote then pure (i + 1)
    else closeQuote cs quote start (i + 1)
  else .error (.error (.unterminatedString start))
termination_by cs.length - i

/-- The position behind the string that starts at a position. -/
def skipQuoted (cs : List Char) (start : Nat) : Except Halt Nat := do
  let quote ← charAt cs start
  closeQuote cs quote start (start + 1)

/-- The position behind the parenthesis that closes the call from `start`, looked for from `i` on
with `depth` parentheses open. -/
def closeCall (cs : List Char) (start depth i : Nat) : Except Halt Nat :=
  if i < cs.length then do
    let c ← charAt cs i
    if c = '(' then closeCall cs start (depth + 1) (i + 1)
    else if c = ')' then do
      let depth ← decrement depth i
      if depth = 0 then pure (i + 1) else closeCall cs start depth (i + 1)
    else if Quotes.opens c then do
      let ⟨j, _⟩ ← advance i (← skipQuoted cs i)
      closeCall cs start depth j
    else closeCall cs start depth (i + 1)
  else .error (.error (.missingClosingParen start))
termination_by cs.length - i

/-- The position behind the argument list that starts at a position. -/
def skipCall (cs : List Char) (start : Nat) : Except Halt Nat := closeCall cs start 0 start

/-- The literal whose characters up to `i` are `text`: all of its characters, and the position
behind them. -/
def scanLiteral (cs text : List Char) (i : Nat) : Except Halt (List Char × Nat) :=
  if i < cs.length then do
    let c ← charAt cs i
    if Quotes.opens c then do
      let ⟨j, _⟩ ← advance i (← skipQuoted cs i)
      let piece ← stretch cs i j
      scanLiteral cs (text ++ piece) j
    else if c = '(' ∧ Token.precedesCall text.getLast? then do
      let ⟨j, _⟩ ← advance i (← skipCall cs i)
      let piece ← stretch cs i j
      scanLiteral cs (text ++ piece) j
    else if (Token.symbolAt c cs[i + 1]?).isSome then pure (text, i)
    else scanLiteral cs (text ++ [c]) (i + 1)
  else pure (text, i)
termination_by cs.length - i

/-- The tokens of a text, of which `tokens` stand in front of `i`. -/
def tokensFrom (cs : List Char) (tokens : List Token) (i : Nat) : Except Halt (List Token) :=
  if i < cs.length then do
    let c ← charAt cs i
    if Text.isBlank c then tokensFrom cs tokens (i + 1)
    else
      match Token.symbolAt c cs[i + 1]? with
      | some (kind, width) => do
        let ⟨j, _⟩ ← advance i (i + width)
        tokensFrom cs (tokens ++ [⟨kind, i⟩]) j
      | none => do
        let (text, stop) ← scanLiteral cs [] i
        let ⟨j, _⟩ ← advance i stop
        tokensFrom cs (tokens ++ [⟨.literal (Token.literalText text), i⟩]) j
  else pure tokens
termination_by cs.length - i

/-- The tokens of a text. -/
def scan (cs : List Char) : Except Halt (List Token) := tokensFrom cs [] 0

/-! ### The checks -/

variable {cs : List Char} {i j : Nat}

/-- There is a character at every position in front of the end. -/
theorem exists_charAt (h : i < cs.length) :
    ∃ c, charAt cs i = .ok c ∧ cs[i]? = some c ∧ cs.drop i = c :: cs.drop (i + 1) := by
  have hget : cs[i]? = some cs[i] := List.getElem?_eq_getElem h
  exact ⟨cs[i], by rw [charAt, hget], hget, List.drop_eq_getElem_cons h⟩

/-- A position behind another one is accepted. -/
theorem advance_of_lt (h : i < j) : advance i j = .ok ⟨j, h⟩ := dif_pos h

/-- Positions in order and inside of the text cut out a stretch. -/
theorem stretch_of_le (hij : i ≤ j) (hj : j ≤ cs.length) :
    stretch cs i j = .ok ((cs.drop i).take (j - i)) := if_pos ⟨hij, hj⟩

/-! ### Skipping -/

/-- **Skipping**: behind the position `i` there is another one in the text, with the character
`last` in front of it. The length `before` of the literal from `i` on is the length `after` from the
other position on and that of the stretch in between. Otherwise the literal has an error. -/
inductive Skips (cs : List Char) (last : Char) (i : Nat) (before : Except ConditionError Nat)
    (after : Nat → Except ConditionError Nat) : Except Halt Nat → Prop
  | ok {j : Nat} : i < j → j ≤ cs.length → cs[j - 1]? = some last →
      before = (· + (j - i)) <$> after j → Skips cs last i before after (.ok j)
  | error {e : ConditionError} : before = .error e →
      Skips cs last i before after (.error (.error e))

namespace Skips

variable {last : Char} {before : Except ConditionError Nat}
  {after : Nat → Except ConditionError Nat} {r : Except Halt Nat}

/-- What is in front of a skipped stretch is skipped with it. -/
theorem of_eq {before' : Except ConditionError Nat} {i' : Nat} (hlt : i < i')
    (hbefore : before = (· + (i' - i)) <$> before') (h : Skips cs last i' before' after r) :
    Skips cs last i before after r := by
  cases h with
  | @ok j hj hle hlast heq =>
      refine .ok (hlt.trans hj) hle hlast ?_
      rw [hbefore, heq]
      cases after j with
      | error e => rfl
      | ok k =>
          simp only [map_ok, Except.ok.injEq]
          omega
  | error heq =>
      refine .error ?_
      rw [hbefore, heq]
      rfl

/-- One stretch behind another. -/
theorem bind {mid : Nat → Except ConditionError Nat} {inner : Char} {k : Nat → Except Halt Nat}
    (h : Skips cs inner i before mid r)
    (hk : ∀ j, i < j → Skips cs last j (mid j) after (k j)) :
    Skips cs last i before after (r >>= k) := by
  cases h with
  | ok hj hle _ heq => exact (hk _ hj).of_eq hj heq
  | error heq => exact .error heq

/-- The character at the position is skipped. -/
theorem char {mid : Except ConditionError Nat} (hbefore : before = (· + 1) <$> mid)
    (h : Skips cs last (i + 1) mid after r) : Skips cs last i before after r := by
  refine h.of_eq (Nat.lt_add_one i) ?_
  rw [hbefore, Nat.add_sub_cancel_left]

/-- The character at the position is the last one that is skipped. -/
theorem last_char (hget : cs[i]? = some last) (hbefore : before = (· + 1) <$> after (i + 1)) :
    Skips cs last i before after (.ok (i + 1)) := by
  obtain ⟨hi, -⟩ := List.getElem?_eq_some_iff.mp hget
  refine .ok (Nat.lt_add_one i) hi hget ?_
  rw [hbefore, Nat.add_sub_cancel_left]

end Skips

/-! ### Strings and calls -/

variable {depth call quote start : Nat} {previous : Option Char}

/-- Inside of quotes the literal goes on. -/
theorem span_quoted {quotes : Quotes} {c : Char} {rest : List Char} (h : quotes ≠ .outside) :
    Cursor.span ⟨depth, quotes, previous⟩ ⟨call, quote, i⟩ (c :: rest) =
      (· + 1) <$> Cursor.span ⟨depth, quotes.next c, some c⟩ ⟨call, quote, i + 1⟩ rest := by
  simp [Cursor.span, Token.literalSpan, h]

/-- An opening quote belongs to the literal. -/
theorem span_opens {c : Char} {rest : List Char} (h : Quotes.opens c = true) :
    Cursor.span ⟨depth, .outside, previous⟩ ⟨call, quote, i⟩ (c :: rest) =
      (· + 1) <$> Cursor.span ⟨depth, .inside c, some c⟩ ⟨call, i, i + 1⟩ rest := by
  simp [Cursor.span, Token.literalSpan, Quotes.next, h]

/-- Inside of arguments the literal goes on, with the parentheses counted. -/
theorem span_argument {c : Char} {rest : List Char} (hdepth : depth ≠ 0)
    (hopens : ¬Quotes.opens c = true) :
    Cursor.span ⟨depth, .outside, previous⟩ ⟨call, quote, i⟩ (c :: rest) =
      (· + 1) <$> Cursor.span
        ⟨if c = '(' then depth + 1 else if c = ')' then depth - 1 else depth, .outside, some c⟩
        ⟨call, quote, i + 1⟩ rest := by
  simp [Cursor.span, Token.literalSpan, Quotes.next, hdepth, hopens]

/-- A character that is neither a quote nor a call nor a symbol belongs to the literal. -/
theorem span_plain {c : Char} {rest : List Char} (hopens : ¬Quotes.opens c = true)
    (hcall : ¬(c = '(' ∧ Token.precedesCall previous = true))
    (hsymbol : ¬(Token.symbolAt c rest.head?).isSome = true) :
    Cursor.span ⟨0, .outside, previous⟩ ⟨call, quote, i⟩ (c :: rest) =
      (· + 1) <$> Cursor.span ⟨0, .outside, some c⟩ ⟨call, quote, i + 1⟩ rest := by
  simp [Cursor.span, Token.literalSpan, Quotes.next, hopens, hcall, hsymbol]

/-- The rest of a string is skipped, up to its closing quote. -/
theorem skips_closeQuote {q : Char} :
    Skips cs q i (Cursor.span ⟨depth, .inside q, previous⟩ ⟨call, start, i⟩ (cs.drop i))
      (fun j => Cursor.span ⟨depth, .outside, some q⟩ ⟨call, start, j⟩ (cs.drop j))
      (closeQuote cs q start i) := by
  induction hn : cs.length - i using Nat.strong_induction_on generalizing i previous with
  | _ n ih =>
  subst hn
  rw [closeQuote]
  -- the string ends at its quote; a backslash takes the next character along
  by_cases hi : i < cs.length
  · obtain ⟨c, hchar, hget, hdrop⟩ := exists_charAt hi
    rw [if_pos hi, hchar, ok_bind, hdrop, span_quoted (by simp), Quotes.next]
    by_cases hslash : c = '\\'
    · rw [if_pos hslash, if_pos hslash]
      by_cases hi' : i + 1 < cs.length
      · -- the character behind the backslash is skipped with it
        obtain ⟨d, -, -, hdrop'⟩ := exists_charAt hi'
        rw [hdrop', span_quoted (by simp), Quotes.next]
        exact .char rfl (.char rfl (ih _ (by omega) rfl))
      · -- the text ends behind the backslash
        rw [closeQuote, if_neg (by omega), List.drop_eq_nil_of_le (Nat.le_of_not_lt hi')]
        exact .error rfl
    · rw [if_neg hslash, if_neg hslash]
      by_cases hq : c = q
      · subst hq
        rw [if_pos rfl, if_pos rfl]
        exact .last_char hget rfl
      · rw [if_neg hq, if_neg hq]
        exact .char rfl (ih _ (by omega) rfl)
  · rw [if_neg hi, List.drop_eq_nil_of_le (Nat.le_of_not_lt hi)]
    exact .error rfl

/-- A string is skipped up to its closing quote. -/
theorem skips_skipQuoted {q : Char} (hget : cs[i]? = some q) (hq : Quotes.opens q = true) :
    Skips cs q i (Cursor.span ⟨depth, .outside, previous⟩ ⟨call, quote, i⟩ (cs.drop i))
      (fun j => Cursor.span ⟨depth, .outside, some q⟩ ⟨call, quote, j⟩ (cs.drop j))
      (skipQuoted cs i) := by
  have hchar : charAt cs i = .ok q := by rw [charAt, hget]
  obtain ⟨hi, hgetElem⟩ := List.getElem?_eq_some_iff.mp hget
  have hmark (j : Nat) :
      Cursor.span ⟨depth, .outside, some q⟩ ⟨call, quote, j⟩ (cs.drop j) =
        Cursor.span ⟨depth, .outside, some q⟩ ⟨call, i, j⟩ (cs.drop j) :=
    Cursor.span_congr rfl (fun h => absurd rfl h) fun _ => rfl
  rw [skipQuoted, hchar, ok_bind, List.drop_eq_getElem_cons hi, hgetElem, span_opens hq]
  simp only [hmark]
  exact .char rfl skips_closeQuote

/-- The rest of an argument list is skipped, up to its closing parenthesis. -/
theorem skips_closeCall (hdepth : depth ≠ 0) :
    Skips cs ')' i (Cursor.span ⟨depth, .outside, previous⟩ ⟨start, quote, i⟩ (cs.drop i))
      (fun j => Cursor.span ⟨0, .outside, some ')'⟩ ⟨start, quote, j⟩ (cs.drop j))
      (closeCall cs start depth i) := by
  induction hn : cs.length - i using Nat.strong_induction_on generalizing i depth previous with
  | _ n ih =>
  subst hn
  rw [closeCall]
  by_cases hi : i < cs.length
  · obtain ⟨c, hchar, hget, hdrop⟩ := exists_charAt hi
    rw [if_pos hi, hchar, ok_bind]
    by_cases hopens : Quotes.opens c = true
    · have hne : c ≠ '(' ∧ c ≠ ')' := by
        constructor <;> rintro rfl <;> simp [Quotes.opens] at hopens
      rw [if_neg hne.1, if_neg hne.2, if_pos hopens]
      -- a string inside of the arguments is skipped as a whole
      refine (skips_skipQuoted hget hopens).bind fun j hj => ?_
      rw [advance_of_lt hj, ok_bind]
      exact ih _ (by omega) hdepth rfl
    · rw [hdrop, span_argument hdepth hopens]
      by_cases hopen : c = '('
      · rw [if_pos hopen, if_pos hopen]
        exact .char rfl (ih _ (by omega) (Nat.succ_ne_zero depth) rfl)
      · rw [if_neg hopen, if_neg hopen]
        by_cases hclose : c = ')'
        · -- at least one parenthesis is open, so the count may go down
          obtain ⟨depth, rfl⟩ := Nat.exists_eq_succ_of_ne_zero hdepth
          rw [if_pos hclose, if_pos hclose, Nat.succ_sub_one, decrement, ok_bind, hclose]
          by_cases hlast : depth = 0
          · rw [if_pos hlast, hlast]
            exact .last_char (hclose ▸ hget) rfl
          · rw [if_neg hlast]
            exact .char rfl (ih _ (by omega) hlast rfl)
        · rw [if_neg hclose, if_neg hclose, if_neg hopens]
          exact .char rfl (ih _ (by omega) hdepth rfl)
  · rw [if_neg hi, List.drop_eq_nil_of_le (Nat.le_of_not_lt hi)]
    refine .error ?_
    simp [Cursor.span, Token.literalSpan, hdepth]

/-- The arguments of a call are skipped up to their closing parenthesis. -/
theorem skips_skipCall (hget : cs[i]? = some '(') (hcall : Token.precedesCall previous = true) :
    Skips cs ')' i (Cursor.span ⟨0, .outside, previous⟩ ⟨call, quote, i⟩ (cs.drop i))
      (fun j => Cursor.span ⟨0, .outside, some ')'⟩ ⟨call, quote, j⟩ (cs.drop j))
      (skipCall cs i) := by
  obtain ⟨hi, hgetElem⟩ := List.getElem?_eq_some_iff.mp hget
  have hchar : charAt cs i = .ok '(' := by rw [charAt, hget]
  have hspan : Cursor.span ⟨0, .outside, previous⟩ ⟨call, quote, i⟩ (cs.drop i) =
      (· + 1) <$> Cursor.span ⟨1, .outside, some '('⟩ ⟨i, quote, i + 1⟩ (cs.drop (i + 1)) := by
    rw [List.drop_eq_getElem_cons hi, hgetElem]
    simp [Cursor.span, Token.literalSpan, Quotes.next, Quotes.opens, hcall]
  have hmark (j : Nat) :
      Cursor.span ⟨0, .outside, some ')'⟩ ⟨call, quote, j⟩ (cs.drop j) =
        Cursor.span ⟨0, .outside, some ')'⟩ ⟨i, quote, j⟩ (cs.drop j) :=
    Cursor.span_congr rfl (fun _ => rfl) fun h => absurd rfl h
  rw [skipCall, closeCall, if_pos hi, hchar, ok_bind, if_pos rfl]
  simp only [hmark]
  exact .char hspan (skips_closeCall Nat.one_ne_zero)

/-! ### Literals -/

/-- The literal of which `text` has been gathered up to `i`, from the length of what is left. -/
def literalFrom (cs text : List Char) (i : Nat) : Except Halt (List Char × Nat) :=
  ((fun length => (text ++ (cs.drop i).take length, i + length)) <$>
    Cursor.span ⟨0, .outside, text.getLast?⟩ ⟨0, 0, i⟩ (cs.drop i)).mapError .error

/-- A stretch that is skipped belongs to the literal, and what is behind it is gathered next. -/
theorem literalFrom_of_skips {text : List Char} {last : Char} {r : Except Halt Nat}
    {gather : List Char → Nat → Except Halt (List Char × Nat)}
    (hgather : ∀ j, i < j → ∀ text, gather text j = literalFrom cs text j)
    (h : Skips cs last i (Cursor.span ⟨0, .outside, text.getLast?⟩ ⟨0, 0, i⟩ (cs.drop i))
      (fun j => Cursor.span ⟨0, .outside, some last⟩ ⟨0, 0, j⟩ (cs.drop j)) r) :
    (do
      let ⟨j, _⟩ ← advance i (← r)
      let piece ← stretch cs i j
      gather (text ++ piece) j) = literalFrom cs text i := by
  cases h with
  -- the piece that is cut out is what the length counts, up to the position behind it
  | @ok j hij hj hlast heq =>
      have hprevious : (text ++ (cs.drop i).take (j - i)).getLast? = some last := by
        have hget : (cs.drop i)[j - i - 1]? = some last := by
          rw [List.getElem?_drop, show i + (j - i - 1) = j - 1 by omega, hlast]
        rw [List.getLast?_append, List.getLast?_take, if_neg (by omega), hget]
        rfl
      simp only [ok_bind, advance_of_lt hij, stretch_of_le hij.le hj]
      rw [hgather j hij, literalFrom, literalFrom, hprevious, heq]
      cases Cursor.span ⟨0, .outside, some last⟩ ⟨0, 0, j⟩ (cs.drop j) with
      | error e => rfl
      | ok length =>
          have htake : (cs.drop i).take (length + (j - i)) =
              (cs.drop i).take (j - i) ++ (cs.drop j).take length := by
            rw [Nat.add_comm, List.take_add, List.drop_drop, Nat.add_sub_cancel' hij.le]
          have hstop : i + (length + (j - i)) = j + length := by omega
          simp only [map_ok, htake, hstop, List.append_assoc]
  | error heq =>
      rw [literalFrom, heq]
      rfl

/-- Where the literal ends nothing more is gathered. -/
theorem literalFrom_of_ends {text : List Char} {c : Char}
    (hdrop : cs.drop i = c :: cs.drop (i + 1))
    (h : Cursor.Ends ⟨0, .outside, text.getLast?⟩ c (cs.drop (i + 1)).head?) :
    literalFrom cs text i = .ok (text, i) := by
  rw [literalFrom, hdrop, Cursor.span_cons, if_pos h, map_ok, List.take_zero, List.append_nil]
  rfl

/-- A character that neither opens nor ends anything belongs to the literal. -/
theorem literalFrom_concat {text : List Char} {c : Char}
    (hdrop : cs.drop i = c :: cs.drop (i + 1)) (hopens : ¬Quotes.opens c = true)
    (hcall : ¬(c = '(' ∧ Token.precedesCall text.getLast? = true))
    (hsymbol : ¬(Token.symbolAt c (cs.drop (i + 1)).head?).isSome = true) :
    literalFrom cs (text ++ [c]) (i + 1) = literalFrom cs text i := by
  rw [literalFrom, literalFrom, hdrop, span_plain hopens hcall hsymbol, List.getLast?_concat]
  cases Cursor.span ⟨0, .outside, some c⟩ ⟨0, 0, i + 1⟩ (cs.drop (i + 1)) with
  | error e => rfl
  | ok length =>
      simp only [map_ok, List.take_succ_cons, List.append_assoc, List.singleton_append]
      rw [Nat.add_right_comm, Nat.add_assoc]

/-- The scanner by position gathers the literal that the length tells. -/
theorem scanLiteral_eq {text : List Char} : scanLiteral cs text i = literalFrom cs text i := by
  induction hn : cs.length - i using Nat.strong_induction_on generalizing i text with
  | _ n ih =>
  subst hn
  rw [scanLiteral]
  by_cases hi : i < cs.length
  · obtain ⟨c, hchar, hget, hdrop⟩ := exists_charAt hi
    have hbehind (j : Nat) (hj : i < j) (text : List Char) :
        scanLiteral cs text j = literalFrom cs text j := ih _ (by omega) rfl
    rw [if_pos hi, hchar, ok_bind, ← List.head?_drop]
    by_cases hopens : Quotes.opens c = true
    · rw [if_pos hopens]
      exact literalFrom_of_skips hbehind (skips_skipQuoted hget hopens)
    · rw [if_neg hopens]
      by_cases hcall : c = '(' ∧ Token.precedesCall text.getLast? = true
      · rw [if_pos hcall]
        exact literalFrom_of_skips hbehind (skips_skipCall (hcall.1 ▸ hget) hcall.2)
      · rw [if_neg hcall]
        by_cases hsymbol : (Token.symbolAt c (cs.drop (i + 1)).head?).isSome = true
        · rw [if_pos hsymbol, literalFrom_of_ends hdrop ⟨⟨rfl, rfl⟩, hcall, hsymbol⟩]
          rfl
        · rw [if_neg hsymbol, hbehind (i + 1) (Nat.lt_add_one i),
            literalFrom_concat hdrop hopens hcall hsymbol]
  · rw [if_neg hi, literalFrom, List.drop_eq_nil_of_le (Nat.le_of_not_lt hi)]
    simp [Cursor.span, Token.literalSpan, Except.mapError, pure, Except.pure]

/-! ### Tokens -/

/-- A literal that starts where no symbol does is not empty. -/
theorem pos_of_span {c : Char} {rest : List Char} {m : Marks} {length : Nat}
    (hsymbol : Token.symbolAt c rest.head? = none)
    (h : Cursor.start.span m (c :: rest) = .ok length) : 0 < length := by
  rw [Cursor.span_cons, if_neg (Token.not_ends_start hsymbol), map_eq_ok_iff] at h
  obtain ⟨length, -, rfl⟩ := h
  exact Nat.succ_pos length

/-- Adding an element and then others is adding them all. -/
theorem map_append_singleton {α ε : Type} (l : List α) (a : α) (x : Except ε (List α)) :
    (l ++ [a] ++ ·) <$> x = (l ++ ·) <$> (a :: ·) <$> x := by
  cases x with
  | error e => rfl
  | ok l' => simp

/-- The scanner by position adds the tokens of what is left. -/
theorem tokensFrom_eq {tokens : List Token} :
    tokensFrom cs tokens i =
      ((tokens ++ ·) <$> Token.scanFrom 0 i (cs.drop i)).mapError .error := by
  -- by what is left of the text; each round goes on behind a token or white space
  induction hn : cs.length - i using Nat.strong_induction_on generalizing i tokens with
  | _ n ih =>
  subst hn
  rw [tokensFrom]
  by_cases hi : i < cs.length
  · obtain ⟨c, hchar, hget, hdrop⟩ := exists_charAt hi
    rw [if_pos hi, hchar, ok_bind, hdrop]
    by_cases hblank : Text.isBlank c = true
    · rw [if_pos hblank, Token.scanFrom_blank hblank]
      exact ih _ (by omega) rfl
    · rw [if_neg hblank, ← List.head?_drop]
      cases hsymbol : Token.symbolAt c (cs.drop (i + 1)).head? with
      | some symbol =>
          obtain ⟨kind, width⟩ := symbol
          have hwidth : i < i + width := Nat.lt_add_of_pos_right (Token.symbolAt_width hsymbol)
          rw [Token.scanFrom_symbol hsymbol, ← hdrop, List.drop_drop]
          simp only [advance_of_lt hwidth, ok_bind]
          rw [ih _ (by omega) rfl, map_append_singleton]
      | none =>
          -- the literal has the length that the scanner of lists finds
          have hliteral : scanLiteral cs [] i =
              ((fun length => ((c :: cs.drop (i + 1)).take length, i + length)) <$>
                Cursor.start.span ⟨0, 0, i⟩ (c :: cs.drop (i + 1))).mapError .error := by
            rw [scanLiteral_eq, literalFrom, hdrop]
            rfl
          rw [hliteral]
          cases hspan : Cursor.start.span ⟨0, 0, i⟩ (c :: cs.drop (i + 1)) with
          | error e =>
              rw [Token.scanFrom_of_span_eq_error (by simpa using hblank) hsymbol hspan]
              rfl
          | ok length =>
              have hpos := pos_of_span hsymbol hspan
              have hlength : i < i + length := Nat.lt_add_of_pos_right hpos
              rw [Token.scanFrom_literal (by simpa using hblank) hsymbol hspan hpos,
                ← map_append_singleton, ← hdrop, List.drop_drop, ← ih _ (by omega) rfl]
              simp only [map_ok, Except.mapError, ok_bind, advance_of_lt hlength]
  · rw [if_neg hi, List.drop_eq_nil_of_le (Nat.le_of_not_lt hi)]
    simp [Token.scanFrom, Except.mapError, pure, Except.pure]

/-- **No text leads the scanner to a fault**: it returns what is scanned without positions. -/
theorem scan_eq : scan cs = (Token.scan cs).mapError .error := by
  rw [scan, tokensFrom_eq, Token.scan, List.drop_zero]
  simp

end Guarded

end AgentPipeline
