import AgentPipeline.Proofs.Condition.Grammar

/-!
# Reading rendered conditions

`Condition.render` puts parentheses around the operands of `&&`, `||` and `!`, and writes
every other condition as it is. `Spells c t` says that this works for `c`: its operators
lead down to conditions whose own texts are literal texts, and `t` is the tree of the
operators over these texts.

A condition that spells a tree is read as this tree (`Spells.parse_render`), because

* its text is scanned into a sentence of the grammar with this tree, whatever stands behind
  it that may stand behind a literal (`Spells.embeds`), and
* a sentence of the grammar is read as its tree (`Condition.parse_eq_ok_iff`).

What `Condition.parse` returns spells itself, since the text of a literal token is a literal
text (`Derives.spells`). So reading, rendering and reading again changes nothing.
-/

namespace AgentPipeline.Condition

open Token (IsLiteral Delimits Reads delimits_nil delimits_closeParen)

/-- The conditions that `render` writes without looking for operators in them. -/
def IsAtom : Condition → Prop
  | .and _ _ | .or _ _ | .not _ | .disjunction _ _ => False
  | _ => True

/-- **Spelling**: the operators of `c` stand over literal texts, and `t` is their tree. -/
inductive Spells : Condition → Condition → Prop
  | atom {c : Condition} : c.IsAtom → IsLiteral c.render.toList → Spells c (leaf c.render)
  | and {l l' r r' : Condition} : Spells l l' → Spells r r' → Spells (.and l r) (.and l' r')
  | or {l l' r r' : Condition} : Spells l l' → Spells r r' → Spells (.or l r) (.or l' r')
  | not {c c' : Condition} : Spells c c' → Spells (.not c) (.not c')

/-! ### The tokens of a rendered condition -/

/-- The text has tokens of these kinds, in front of everything that may stand behind a
literal. -/
def Embeds (cs : List Char) (kinds : List TokenKind) : Prop :=
  ∀ rest ks, Delimits rest → Reads rest ks → Reads (cs ++ rest) (kinds ++ ks)

theorem embeds_literal {cs : List Char} (h : IsLiteral cs) :
    Embeds cs [.literal (String.ofList cs)] :=
  fun _ _ hrest hreads => hreads.literal h hrest

/-- In parentheses the text may stand in front of anything. -/
theorem Embeds.paren {cs rest : List Char} {kinds ks : List TokenKind} (h : Embeds cs kinds)
    (hrest : Reads rest ks) :
    Reads ('(' :: cs ++ ')' :: rest) (.openParen :: kinds ++ .closeParen :: ks) :=
  (h _ _ (delimits_closeParen rest) hrest.closeParen).openParen

/-- Two operands in parentheses around a binary operator. -/
theorem Embeds.binary (op : List Char) {kind : TokenKind} {a b : List Char}
    {left right : List TokenKind}
    (hop : ∀ {rest ks}, Reads rest ks → Reads (op ++ rest) (kind :: ks))
    (ha : Embeds a left) (hb : Embeds b right) :
    Embeds ('(' :: a ++ ')' :: ' ' :: op ++ ' ' :: '(' :: b ++ [')'])
      (.openParen :: left ++ .closeParen :: kind :: .openParen :: right ++
        [.closeParen]) := by
  intro rest ks _ hreads
  have hspace : Text.isBlank ' ' = true := by decide
  have hright := (hop ((hb.paren hreads).blank hspace)).blank hspace
  simpa using ha.paren hright

/-- A negated operand in parentheses. -/
theorem Embeds.not {cs : List Char} {kinds : List TokenKind} (h : Embeds cs kinds) :
    Embeds ('!' :: '(' :: cs ++ [')'])
      (.not :: .openParen :: kinds ++ [.closeParen]) := by
  intro rest ks _ hreads
  simpa using (h.paren hreads).not (by simp)

/-- **The tokens of a rendered condition** derive the tree that it spells, by induction on
the condition. Operands stand in parentheses, which makes sentences of the tightest level of
them. -/
theorem Spells.embeds {c t : Condition} (h : Spells c t) :
    ∃ kinds, Derives .or kinds t ∧ Embeds c.render.toList kinds := by
  induction h with
  | @atom c _ hc =>
      refine ⟨[.literal c.render], .conjunct (.unary (.primary (.literal _))), ?_⟩
      simpa using embeds_literal hc
  | and _ _ ihl ihr =>
      obtain ⟨left, hl, hleft⟩ := ihl
      obtain ⟨right, hr, hright⟩ := ihr
      refine ⟨_, .conjunct (.and (.unary (.primary (.paren hl))) (.primary (.paren hr))), ?_⟩
      simpa [render] using Embeds.binary ['&', '&'] Reads.and hleft hright
  | or _ _ ihl ihr =>
      obtain ⟨left, hl, hleft⟩ := ihl
      obtain ⟨right, hr, hright⟩ := ihr
      refine ⟨_, .or (.conjunct (.unary (.primary (.paren hl))))
        (.unary (.primary (.paren hr))), ?_⟩
      simpa [render] using Embeds.binary ['|', '|'] Reads.or hleft hright
  | not _ ih =>
      obtain ⟨kinds, hd, hembeds⟩ := ih
      refine ⟨_, .conjunct (.unary (.not (.primary (.paren hd)))), ?_⟩
      simpa [render] using hembeds.not

/-! ### Reading what was rendered -/

/-- **A condition is read as the tree that it spells.** -/
theorem Spells.parse_render {c t : Condition} (h : Spells c t) :
    parse c.render = .ok t := by
  obtain ⟨kinds, hd, hembeds⟩ := h.embeds
  obtain ⟨tokens, htokens, hkinds⟩ := hembeds [] [] delimits_nil Reads.nil 0
  rw [List.append_nil] at htokens hkinds
  exact parse_eq_ok_iff.mpr ⟨tokens, Token.scan_eq_ok_iff.mpr htokens, hkinds ▸ hd⟩

/-- The tree of a sentence spells itself, if the literals of the sentence are literal
texts. -/
theorem Derives.spells {level : Precedence} {kinds : List TokenKind} {t : Condition}
    (h : Derives level kinds t)
    (hlit : ∀ text, .literal text ∈ kinds → IsLiteral text.toList) : Spells t t := by
  induction h with
  | literal text => exact .atom trivial (hlit text (by simp))
  | paren _ ih => exact ih fun text ht => hlit text (by simp [ht])
  | primary _ ih | unary _ ih | conjunct _ ih => exact ih hlit
  | not _ ih => exact .not (ih fun text ht => hlit text (by simp [ht]))
  | and _ _ ihl ihr =>
      exact .and (ihl fun text ht => hlit text (by simp [ht]))
        (ihr fun text ht => hlit text (by simp [ht]))
  | or _ _ ihl ihr =>
      exact .or (ihl fun text ht => hlit text (by simp [ht]))
        (ihr fun text ht => hlit text (by simp [ht]))

/-- Whatever has been read from a text spells itself. -/
theorem spells_of_parse {text : String} {t : Condition} (h : parse text = .ok t) :
    Spells t t := by
  obtain ⟨tokens, htokens, hd⟩ := parse_eq_ok_iff.mp h
  exact hd.spells fun _ ht => (Token.scan_eq_ok_iff.mp htokens).isLiteral ht

/-- **Reading, rendering and reading again** gives the same tree, whatever stands in the
literals of the text. -/
theorem parse_render_of_parse {text : String} {t : Condition} (h : parse text = .ok t) :
    parse t.render = .ok t :=
  (spells_of_parse h).parse_render

/-- A quoted text with an escaped quote and an operator, a call with a quoted operator among
its arguments, a line break, and a single `&`. -/
theorem parse_render_quoted_operators :
    let text := "a != 'it\\'s && (b' && !f(g(1), \"x||y\") ||\n c & d"
    let t : Condition :=
      .or (.and (leaf "a != 'it\\'s && (b'") (.not (leaf "f(g(1), \"x||y\")"))) (leaf "c & d")
    parse text = .ok t ∧ parse t.render = .ok t := by
  intro text t
  have hscan : Token.scan text.toList =
      .ok [⟨.literal "a != 'it\\'s && (b'", 0⟩, ⟨.and, 19⟩, ⟨.not, 22⟩,
        ⟨.literal "f(g(1), \"x||y\")", 23⟩, ⟨.or, 39⟩, ⟨.literal "c & d", 43⟩] := by
    decide +kernel
  have hleft := Derives.and (.unary (.primary (.literal "a != 'it\\'s && (b'")))
    (.not (.primary (.literal "f(g(1), \"x||y\")")))
  have hparse : parse text = .ok t :=
    parse_eq_ok_iff.mpr
      ⟨_, hscan, Derives.or (.conjunct hleft) (.unary (.primary (.literal "c & d")))⟩
  exact ⟨hparse, parse_render_of_parse hparse⟩

end AgentPipeline.Condition
