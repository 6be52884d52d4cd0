import AgentPipeline.Proofs.Condition.Meaning
import AgentPipeline.Proofs.Condition.Spacing

/-!
# Reading respaced conditions

A condition is read the same whatever white space stands in it outside of quotes. The tokens of
a respaced text are those of the text itself, up to the white space inside of literals
(`Scans.exists_respaced`): where one scanner is in the middle of a literal, so is the other, with
as many argument lists open and the same quotes (`Cursor.Abreast`). The last characters of the
two stretches need not be equal, but both precede a call or neither does, since white space
does not.

The tokens then derive trees of one shape (`Derives.exists_sameUpToSpacing`), whose leaves are equal
once the white space in them is collapsed (`SameUpToSpacing`).
-/

namespace AgentPipeline

/-! ### White space in front of symbols and calls -/

namespace Text

/-- The codes of white space. -/
def blankCodes : List Nat :=
  [9, 10, 11, 12, 13, 0x20, 0x85, 0xA0, 0x1680, 0x2000, 0x2001, 0x2002, 0x2003, 0x2004, 0x2005,
    0x2006, 0x2007, 0x2008, 0x2009, 0x200A, 0x2028, 0x2029, 0x202F, 0x205F, 0x3000]

/-- White space has one of the codes of white space. -/
theorem toNat_mem_blankCodes {c : Char} (h : isBlank c = true) : c.toNat ∈ blankCodes := by
  simp only [isBlank, Bool.or_eq_true, Bool.and_eq_true, decide_eq_true_eq, beq_iff_eq] at h
  simp only [blankCodes, List.mem_cons]
  omega

/-- White space is neither a letter nor a number. -/
theorem isAlphanumeric_of_isBlank {c : Char} (h : isBlank c = true) : isAlphanumeric c = false := by
  have hcodes : ∀ n ∈ blankCodes, isAlphanumeric (Char.ofNat n) = false := by decide +kernel
  rw [← Char.ofNat_toNat c]
  exact hcodes _ (toNat_mem_blankCodes h)

end Text

namespace Token

/-- White space does not precede a call. -/
theorem precedesCall_of_isBlank {c : Char} (h : Text.isBlank c = true) :
    precedesCall (some c) = false := by
  have hne : c ≠ '_' := Text.ne_of_isBlank h (by decide)
  simp [precedesCall, Text.isAlphanumeric_of_isBlank h, hne]

/-- Two texts start **alike** if they start with the same character, or each with white space
or not at all. -/
def Alike (next next' : Option Char) : Prop :=
  next = next' ∨
    (∀ c ∈ next, Text.isBlank c = true) ∧ ∀ c ∈ next', Text.isBlank c = true

/-- No symbol looks at the kind of white space behind it. -/
theorem symbolAt_congr {c : Char} {next next' : Option Char} (h : Alike next next') :
    symbolAt c next = symbolAt c next' := by
  rcases h with rfl | ⟨h, h'⟩
  · rfl
  · have hne : ∀ o : Option Char, (∀ c ∈ o, Text.isBlank c = true) →
        o ≠ some '&' ∧ o ≠ some '|' ∧ o ≠ some '=' := by
      intro o ho
      refine ⟨?_, ?_, ?_⟩ <;> rintro rfl <;> exact absurd (ho _ rfl) (by decide)
    simp [symbolAt, hne next h, hne next' h']

end Token

/-- A respaced text starts like the text itself. -/
theorem Respaced.alike {q : Quotes} {a b : List Char} (h : Respaced false q a b) :
    Token.Alike a.head? b.head? := by
  cases h with
  | ends ha => exact .inr ⟨fun c hc => ha c (List.mem_of_mem_head? hc), nofun⟩
  | keep => exact .inl rfl
  | space hc hd => exact .inr ⟨by rintro _ ⟨⟩; exact hc, by rintro _ ⟨⟩; exact hd⟩

/-! ### Two cursors side by side -/

namespace Cursor

/-- Two cursors go **abreast** if they end the same literals. White space in front of the
second one, as `gap` says, does not precede a call. -/
structure Abreast (gap : Bool) (s s' : Cursor) : Prop where
  depth : s.depth = s'.depth
  quotes : s.quotes = s'.quotes
  previous : Token.precedesCall s.previous = Token.precedesCall s'.previous
  behind_gap : gap = true → Token.precedesCall s'.previous = false

variable {gap : Bool} {s s' : Cursor} {c d : Char} {next next' : Option Char}

/-- At the start of a literal both cursors are the same. -/
theorem abreast_start : Abreast gap start start := ⟨rfl, rfl, rfl, fun _ => rfl⟩

namespace Abreast

/-- Neither cursor has anything open, or both have. -/
theorem closed_iff (h : Abreast gap s s') : s.Closed ↔ s'.Closed := by
  rw [Closed, Closed, h.quotes, h.depth]

/-- Both cursors end the literal at the same character. -/
theorem ends_iff (h : Abreast gap s s') (hnext : Token.Alike next next') :
    s.Ends c next ↔ s'.Ends c next' := by
  rw [Ends, Ends, h.closed_iff, h.previous, Token.symbolAt_congr hnext]

/-- A character that is kept takes both cursors further. -/
theorem keep (h : Abreast gap s s') (c : Char) : Abreast false (s.after c) (s'.after c) := by
  refine ⟨?_, ?_, rfl, nofun⟩
  · simp only [Cursor.after, h.quotes, h.depth]
  · simp only [Cursor.after, h.quotes]

/-- White space opens and closes nothing, outside of quotes. -/
theorem after_blank (hs : s.quotes = .outside) (hc : Text.isBlank c = true) :
    (s.after c).quotes = .outside ∧ (s.after c).depth = s.depth := by
  have hne : c ≠ '(' ∧ c ≠ ')' :=
    ⟨Text.ne_of_isBlank hc (by decide), Text.ne_of_isBlank hc (by decide)⟩
  simp only [Cursor.after, hs, Quotes.next_blank hc]
  simp [hne]

/-- White space takes both cursors further, whatever it is. -/
theorem space (h : Abreast gap s s') (hs : s.quotes = .outside) (hc : Text.isBlank c = true)
    (hd : Text.isBlank d = true) : Abreast true (s.after c) (s'.after d) := by
  have hs' : s'.quotes = .outside := h.quotes ▸ hs
  obtain ⟨hquotes, hdepth⟩ := after_blank hs hc
  obtain ⟨hquotes', hdepth'⟩ := after_blank hs' hd
  refine ⟨?_, hquotes.trans hquotes'.symm, ?_, fun _ => Token.precedesCall_of_isBlank hd⟩
  · rw [hdepth, hdepth', h.depth]
  · exact (Token.precedesCall_of_isBlank hc).trans (Token.precedesCall_of_isBlank hd).symm

/-- White space may be dropped behind other white space. -/
theorem drop (h : Abreast true s s') (hs : s.quotes = .outside) (hc : Text.isBlank c = true) :
    Abreast true (s.after c) s' := by
  obtain ⟨hquotes, hdepth⟩ := after_blank hs hc
  refine ⟨hdepth.trans h.depth, ?_, ?_, h.behind_gap⟩
  · rw [hquotes, ← h.quotes, hs]
  · exact (Token.precedesCall_of_isBlank hc).trans (h.behind_gap rfl).symm

end Abreast

/-- **Where a literal ends in a respaced text**: the text consists of the literal, respaced, and
of what stands behind it, respaced. By induction on the literal; the cursors go abreast. -/
theorem exists_respaced_literal {lit rest b : List Char} (hs : s.Quoted) (h : Abreast gap s s')
    (hr : Respaced gap s.quotes (lit ++ rest) b) (hcovers : s.Covers lit rest.head?)
    (hends : (s.afterAll lit).EndsAt rest) :
    ∃ lit' rest', b = lit' ++ rest' ∧ Respaced gap s.quotes lit lit' ∧
      (∃ gap', Respaced gap' .outside rest rest') ∧ s'.Covers lit' rest'.head? ∧
      (s'.afterAll lit').EndsAt rest' := by
  induction lit generalizing gap s s' b with
  | nil =>
      have hclosed : s.Closed := hends.closed
      have hrest : Respaced gap .outside rest b := hclosed.1 ▸ hr
      refine ⟨[], b, rfl, .nil, ⟨gap, hrest⟩, trivial, ?_⟩
      cases hrest with
      | ends => exact h.closed_iff.mp hclosed
      | keep _ hrest => exact (h.ends_iff hrest.alike).mp hends
      | space hblank => exact absurd hends (not_ends_of_isBlank hblank)
      | drop hblank => exact absurd hends (not_ends_of_isBlank hblank)
  | cons c lit ih =>
      obtain ⟨hc, hcovers⟩ := hcovers
      rw [← List.head?_append] at hc
      rw [List.cons_append] at hr
      -- the rule of the relation that made the first character what it is
      generalize hq : s.quotes = q at hr
      cases hr with
      | ends hblanks =>
          rw [← List.cons_append, Text.Blanks, List.forall_mem_append] at hblanks
          have hclosed : s.Closed := closed_of_afterAll_blanks hs hblanks.1 hends.closed
          exact ⟨[], [], rfl, .ends hblanks.1, ⟨true, .ends hblanks.2⟩, trivial,
            h.closed_iff.mp hclosed⟩
      | @keep _ _ _ _ b hkept hr =>
          subst hq
          obtain ⟨lit', rest', rfl, hlit, hrest, hcovers', hends'⟩ :=
            ih (hs.after c) (h.keep c) hr hcovers hends
          refine ⟨c :: lit', rest', rfl, .keep hkept hlit, hrest, ⟨?_, hcovers'⟩, hends'⟩
          rw [← List.head?_append]
          exact fun hends => hc ((h.ends_iff hr.alike).mpr hends)
      | @space _ _ d _ b hblank hd hr =>
          obtain ⟨hquotes, -⟩ := Abreast.after_blank hq hblank
          rw [← hquotes] at hr
          obtain ⟨lit', rest', rfl, hlit, hrest, hcovers', hends'⟩ :=
            ih (hs.after c) (h.space hq hblank hd) hr hcovers hends
          rw [hquotes] at hlit
          exact ⟨d :: lit', rest', rfl, .space hblank hd hlit, hrest,
            ⟨not_ends_of_isBlank hd, hcovers'⟩, hends'⟩
      | drop hblank hr =>
          obtain ⟨hquotes, -⟩ := Abreast.after_blank hq hblank
          rw [← hquotes] at hr
          obtain ⟨lit', rest', rfl, hlit, hrest, hcovers', hends'⟩ :=
            ih (hs.after c) (h.drop hq hblank) hr hcovers hends
          rw [hquotes] at hlit
          exact ⟨lit', rest', rfl, .drop hblank hlit, hrest, hcovers', hends'⟩

end Cursor

/-! ### The tokens of a respaced text -/

namespace TokenKind

/-- The text of a literal with its white space collapsed, and every other kind as it is. -/
def collapse : TokenKind → TokenKind
  | .literal text => .literal (String.ofList (Quotes.collapse text.toList))
  | kind => kind

end TokenKind

namespace Token

/-- A cursor follows the quotes. -/
theorem quotes_afterAll (s : Cursor) (cs : List Char) :
    (s.afterAll cs).quotes = s.quotes.after cs := by
  induction cs generalizing s with
  | nil => rfl
  | cons c cs ih => exact ih (s.after c)

/-- **The texts of respaced literals** are equal when they are collapsed. -/
theorem collapse_literalText {gap : Bool} {lit lit' : List Char} (hne : lit ≠ [])
    (hhead : ∀ c ∈ lit.head?, Text.isBlank c = false) (hr : Respaced gap .outside lit lit')
    (hclosed : Quotes.outside.after lit = .outside)
    (hclosed' : Quotes.outside.after lit' = .outside) :
    (TokenKind.literal (literalText lit')).collapse =
      (TokenKind.literal (literalText lit)).collapse := by
  obtain ⟨c, lit, rfl⟩ := List.exists_cons_of_ne_nil hne
  have hc : Text.isBlank c = false := hhead c rfl
  obtain ⟨lit', rfl, hrest⟩ := hr.exists_kept hc
  -- no white space stands in front, so that it does not matter whether it may be dropped
  have hkept : Respaced false .outside (c :: lit) (c :: lit') := .keep (fun _ => hc) hrest
  have hhead' : ∀ d ∈ (c :: lit').head?, Text.isBlank d = false := hhead
  have hcollapse : Quotes.collapse (c :: lit) = Quotes.collapse (c :: lit') := by
    rw [Quotes.collapse, Quotes.collapse, Quotes.trimStart_eq_self hhead,
      Quotes.trimStart_eq_self hhead']
    exact hkept.collapseFrom_eq Quotes.proper_outside hclosed (by simp)
  simp only [TokenKind.collapse, literalText, String.toList_ofList]
  rw [Quotes.collapse_trim hclosed, Quotes.collapse_trim hclosed', hcollapse]

/-- A symbol is one character, or a character that stands twice. -/
theorem symbolAt_width_cases {c : Char} {next : Option Char} {kind : TokenKind} {width : Nat}
    (h : symbolAt c next = some (kind, width)) : width = 1 ∨ width = 2 ∧ next = some c := by
  unfold symbolAt at h
  grind

/-- A symbol starts with something else than white space or quotes. -/
theorem not_blank_of_symbolAt {c : Char} {next : Option Char} {symbol : TokenKind × Nat}
    (h : symbolAt c next = some symbol) :
    Text.isBlank c = false ∧ Quotes.outside.next c = .outside := by
  constructor
  · refine Bool.eq_false_iff.mpr fun hblank => ?_
    simp [symbolAt_of_isBlank next hblank] at h
  · have hopens : ¬Quotes.opens c = true := fun ho => by simp [symbolAt_of_opens next ho] at h
    simp [Quotes.next, hopens]

/-- Behind a symbol, a respaced text is what stands behind the symbol, respaced. -/
theorem respaced_drop {c : Char} {a b : List Char} {kind : TokenKind} {width : Nat}
    (h : symbolAt c a.head? = some (kind, width)) (hr : Respaced false .outside a b) :
    Respaced false .outside ((c :: a).drop width) ((c :: b).drop width) := by
  obtain ⟨hblank, hnext⟩ := not_blank_of_symbolAt h
  rcases symbolAt_width_cases h with rfl | ⟨rfl, hhead⟩
  · exact hr
  · cases a with
    | nil => simp at hhead
    | cons d a =>
        obtain rfl : d = c := Option.some.inj hhead
        obtain ⟨b, rfl, hrest⟩ := hr.exists_kept hblank
        exact hnext ▸ hrest

/-- **Scanning a respaced text** gives the same kinds of tokens, up to the white space inside
of literals. -/
theorem Scans.exists_respaced {position : Nat} {a : List Char} {tokens : List Token}
    (h : Scans position a tokens) {gap : Bool} {b : List Char}
    (hr : Respaced gap .outside a b) (position' : Nat) :
    ∃ tokens', Scans position' b tokens' ∧
      (kinds tokens').map TokenKind.collapse = (kinds tokens).map TokenKind.collapse := by
  induction h generalizing gap b position' with
  | nil =>
      cases hr with
      | ends => exact ⟨[], .nil, rfl⟩
  -- white space between tokens may become other white space, or none
  | @blank _ c cs _ hblank _ ih =>
      cases hr with
      | ends hblanks =>
          have hrest : Respaced true .outside cs [] := .ends (Text.blanks_cons.mp hblanks).2
          exact ih hrest position'
      | keep hkept => simp [hkept rfl] at hblank
      | space _ hd hr =>
          obtain ⟨tokens', htokens, hkinds⟩ := ih hr (position' + 1)
          exact ⟨tokens', .blank hd htokens, hkinds⟩
      | drop _ hr => exact ih hr position'
  | @symbol _ c cs kind width _ hsymbol _ ih =>
      obtain ⟨hblank, hnext⟩ := not_blank_of_symbolAt hsymbol
      obtain ⟨b, rfl, hrest⟩ := hr.exists_kept hblank
      rw [hnext] at hrest
      obtain ⟨tokens', htokens, hkinds⟩ := ih (respaced_drop hsymbol hrest) (position' + width)
      rw [symbolAt_congr hrest.alike] at hsymbol
      exact ⟨⟨kind, position'⟩ :: tokens', .symbol hsymbol htokens, by simp [hkinds]⟩
  | @literal _ lit rest _ hne hhead hcovers hends _ ih =>
      obtain ⟨lit', rest', rfl, hlit, ⟨gap', hrest⟩, hcovers', hends'⟩ :=
        -- the cursor over the other text covers the respaced literal and ends where this one ends
        Cursor.exists_respaced_literal Cursor.quoted_start Cursor.abreast_start hr hcovers hends
      obtain ⟨tokens', htokens, hkinds⟩ := ih hrest (position' + lit'.length)
      have hclosed : Quotes.outside.after lit = .outside :=
        (quotes_afterAll Cursor.start lit).symm.trans hends.closed.1
      have hclosed' : Quotes.outside.after lit' = .outside :=
        (quotes_afterAll Cursor.start lit').symm.trans hends'.closed.1
      have htext := collapse_literalText hne hhead hlit hclosed hclosed'
      obtain ⟨c, lit, rfl⟩ := List.exists_cons_of_ne_nil hne
      obtain ⟨lit', rfl, -⟩ := hlit.exists_kept (hhead c rfl)
      exact ⟨_, .literal (List.cons_ne_nil c lit') hhead hcovers' hends' htokens,
        by simp [hkinds, htext]⟩

end Token

/-! ### The trees of a respaced text -/

namespace Condition

/-- **The same up to spacing**: trees of one shape, whose leaves are equal when they are
collapsed. -/
inductive SameUpToSpacing : Condition → Condition → Prop
  | leaf {a b : String} : Quotes.collapse a.toList = Quotes.collapse b.toList →
      SameUpToSpacing (leaf a) (leaf b)
  | and {l l' r r' : Condition} : SameUpToSpacing l l' → SameUpToSpacing r r' →
      SameUpToSpacing (.and l r) (.and l' r')
  | or {l l' r r' : Condition} : SameUpToSpacing l l' → SameUpToSpacing r r' →
      SameUpToSpacing (.or l r) (.or l' r')
  | not {c c' : Condition} : SameUpToSpacing c c' → SameUpToSpacing (.not c) (.not c')

open TokenKind (collapse)

/-- Kinds that collapse to a literal are literals. -/
theorem collapse_eq_literal {kind : TokenKind} {text : String}
    (h : collapse kind = collapse (.literal text)) :
    ∃ text', kind = .literal text' ∧
      Quotes.collapse text.toList = Quotes.collapse text'.toList := by
  cases kind with
  | literal text' =>
      refine ⟨text', rfl, ?_⟩
      have htext := String.ofList_injective (TokenKind.literal.inj h)
      exact htext.symm
  | _ => cases h

/-- Only a literal is changed by collapsing. -/
theorem collapse_eq_iff {kind symbol : TokenKind} (h : ∀ text, symbol ≠ .literal text) :
    collapse kind = collapse symbol ↔ kind = symbol := by
  cases symbol with
  | literal text => exact absurd rfl (h text)
  | _ => cases kind <;> simp [collapse]

/-- A symbol at the front stays there when white space is collapsed. -/
theorem exists_cons_of_collapse {kinds kinds' : List TokenKind} {symbol : TokenKind}
    (hsymbol : ∀ text, symbol ≠ .literal text)
    (h : kinds'.map collapse = (symbol :: kinds).map collapse) :
    ∃ rest, kinds' = symbol :: rest ∧ rest.map collapse = kinds.map collapse := by
  obtain ⟨kind, rest, rfl, hkind, hrest⟩ := List.map_eq_cons_iff.mp h
  obtain rfl := (collapse_eq_iff hsymbol).mp hkind
  exact ⟨rest, rfl, hrest⟩

/-- Collapsing white space does not move the border between two sequences of kinds. -/
theorem exists_append_of_collapse {a b kinds' : List TokenKind}
    (h : kinds'.map collapse = (a ++ b).map collapse) :
    ∃ a' b', kinds' = a' ++ b' ∧ a'.map collapse = a.map collapse ∧
      b'.map collapse = b.map collapse := by
  rw [List.map_append] at h
  exact List.map_eq_append_iff.mp h

/-- **Sentences up to spacing** derive trees that are the same up to spacing. -/
theorem Derives.exists_sameUpToSpacing {level : Precedence} {kinds : List TokenKind}
    {t : Condition} (h : Derives level kinds t) {kinds' : List TokenKind}
    (heq : kinds'.map collapse = kinds.map collapse) :
    ∃ t', Derives level kinds' t' ∧ SameUpToSpacing t t' := by
  -- along the derivation; the tokens of the other text are cut at the same places
  induction h generalizing kinds' with
  | literal text =>
      obtain ⟨kind, rfl, hkind⟩ := List.map_eq_singleton_iff.mp heq
      obtain ⟨text', rfl, htext⟩ := collapse_eq_literal hkind
      exact ⟨_, .literal text', .leaf htext⟩
  | paren _ ih =>
      rw [List.cons_append] at heq
      obtain ⟨rest, rfl, hrest⟩ := exists_cons_of_collapse (by simp) heq
      obtain ⟨inner, closing, rfl, hinner, hclosing⟩ := exists_append_of_collapse hrest
      obtain ⟨behind, rfl, hbehind⟩ := exists_cons_of_collapse (by simp) hclosing
      obtain rfl : behind = [] := List.map_eq_nil_iff.mp hbehind
      obtain ⟨t', ht', hsame⟩ := ih hinner
      exact ⟨t', .paren ht', hsame⟩
  | primary _ ih =>
      obtain ⟨t', ht', hsame⟩ := ih heq
      exact ⟨t', .primary ht', hsame⟩
  | not _ ih =>
      obtain ⟨rest, rfl, hrest⟩ := exists_cons_of_collapse (by simp) heq
      obtain ⟨t', ht', hsame⟩ := ih hrest
      exact ⟨_, .not ht', .not hsame⟩
  | unary _ ih =>
      obtain ⟨t', ht', hsame⟩ := ih heq
      exact ⟨t', .unary ht', hsame⟩
  | and _ _ ihl ihr =>
      obtain ⟨left, rest, rfl, hleft, hrest⟩ := exists_append_of_collapse heq
      obtain ⟨right, rfl, hright⟩ := exists_cons_of_collapse (by simp) hrest
      obtain ⟨l', hl', hl⟩ := ihl hleft
      obtain ⟨r', hr', hr⟩ := ihr hright
      exact ⟨_, .and hl' hr', .and hl hr⟩
  | conjunct _ ih =>
      obtain ⟨t', ht', hsame⟩ := ih heq
      exact ⟨t', .conjunct ht', hsame⟩
  | or _ _ ihl ihr =>
      obtain ⟨left, rest, rfl, hleft, hrest⟩ := exists_append_of_collapse heq
      obtain ⟨right, rfl, hright⟩ := exists_cons_of_collapse (by simp) hrest
      obtain ⟨l', hl', hl⟩ := ihl hleft
      obtain ⟨r', hr', hr⟩ := ihr hright
      exact ⟨_, .or hl' hr', .or hl hr⟩

/-- **Reading a respaced text** gives the same tree, up to spacing. -/
theorem exists_parse_of_respaced {a b : String} {t : Condition} (h : parse a = .ok t)
    (hr : Respaced true .outside a.toList b.toList) :
    ∃ t', parse b = .ok t' ∧ SameUpToSpacing t t' := by
  obtain ⟨tokens, hscan, hd⟩ := parse_eq_ok_iff.mp h
  obtain ⟨tokens', htokens, hkinds⟩ := (Token.scan_eq_ok_iff.mp hscan).exists_respaced hr 0
  obtain ⟨t', hd', hsame⟩ := hd.exists_sameUpToSpacing hkinds
  exact ⟨t', parse_eq_ok_iff.mpr ⟨tokens', Token.scan_eq_ok_iff.mpr htokens, hd'⟩, hsame⟩

end Condition

end AgentPipeline
