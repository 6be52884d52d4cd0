import AgentPipeline.Condition.Parser
import AgentPipeline.Proofs.Condition.Scan

/-!
# The grammar of conditions

`Condition.parse` reads a condition by recursive descent, with a loop for each of the two
binary operators. This module says the same without an algorithm: `Derives level kinds t`
holds if the token kinds `kinds` are a sentence of the level `level` of the grammar, with
the tree `t`. A chain of operands is a sentence of the level's left operand followed by the
operator and one more operand, which is what makes both binary operators nest to the left;
the rule for parentheses has no tree of its own.

Reading is then the same as deriving, in both directions:

* `sound` — what a reader takes from the front of its tokens derives the tree that it
  returns. The loops carry the derivation of their left operand along.
* `Derives.readsOn` — a sentence in front of tokens that cannot continue it is read to
  its end and no further, whatever fuel is left above three units for each token. For a
  chain this says that the loop arrives behind the chain with the tree of the chain in
  hand.

From the two directions follows that a sequence of token kinds has at most one tree
(`Derives.unique`).
-/

namespace AgentPipeline

namespace Condition

/-! ### Derivations -/

/-- The levels of the grammar, from the loosest to the tightest. -/
inductive Precedence where
  | or | and | unary | primary
  deriving DecidableEq, Repr

/-- **Derivations**: the token kinds are a sentence of the level, and its tree is the given
one. -/
inductive Derives : Precedence → List TokenKind → Condition → Prop
  | literal (text : String) : Derives .primary [.literal text] (leaf text)
  | paren {kinds : List TokenKind} {t : Condition} :
      Derives .or kinds t → Derives .primary (.openParen :: kinds ++ [.closeParen]) t
  | primary {kinds : List TokenKind} {t : Condition} :
      Derives .primary kinds t → Derives .unary kinds t
  | not {kinds : List TokenKind} {t : Condition} :
      Derives .unary kinds t → Derives .unary (.not :: kinds) (.not t)
  | unary {kinds : List TokenKind} {t : Condition} :
      Derives .unary kinds t → Derives .and kinds t
  | and {left right : List TokenKind} {l r : Condition} :
      Derives .and left l → Derives .unary right r →
      Derives .and (left ++ .and :: right) (.and l r)
  | conjunct {kinds : List TokenKind} {t : Condition} :
      Derives .and kinds t → Derives .or kinds t
  | or {left right : List TokenKind} {l r : Condition} :
      Derives .or left l → Derives .and right r →
      Derives .or (left ++ .or :: right) (.or l r)

/-- No level has the empty sentence. -/
theorem Derives.ne_nil {level : Precedence} {kinds : List TokenKind} {t : Condition}
    (h : Derives level kinds t) : kinds ≠ [] := by
  induction h with
  | literal | paren | not => simp
  | primary _ ih | unary _ ih | conjunct _ ih => exact ih
  | and | or => simp

/-! ### Soundness -/

/-- Behind the kinds `before`, which have been read already, the reader took some tokens
and returned their tree together with the rest. -/
def Takes (level : Precedence) (before : List TokenKind) (tokens : List Token)
    (result : Condition × List Token) : Prop :=
  ∃ taken, tokens = taken ++ result.2 ∧
    Derives level (before ++ Token.kinds taken) result.1

/-- A reader that takes nothing more. -/
theorem Takes.done {level : Precedence} {before : List TokenKind} {t : Condition}
    {rest : List Token} (h : Derives level before t) : Takes level before rest (t, rest) :=
  ⟨[], rfl, by simpa using h⟩

/-- What each reader takes with some fuel derives the tree that it returns. The two loops
start from a derivation of their left operand. -/
structure Sound (fuel : Nat) : Prop where
  or : ∀ {demand tokens r}, parseOr demand fuel tokens = .ok r → Takes .or [] tokens r
  orTail : ∀ {left before tokens r}, Derives .or before left →
    parseOrTail left fuel tokens = .ok r → Takes .or before tokens r
  and : ∀ {demand tokens r}, parseAnd demand fuel tokens = .ok r → Takes .and [] tokens r
  andTail : ∀ {left before tokens r}, Derives .and before left →
    parseAndTail left fuel tokens = .ok r → Takes .and before tokens r
  unary : ∀ {demand tokens r}, parseUnary demand fuel tokens = .ok r →
    Takes .unary [] tokens r

/-- What is taken behind some tokens is taken together with them. -/
theorem Takes.append {level : Precedence} {before : List TokenKind}
    {taken rest : List Token} {r : Condition × List Token}
    (h : Takes level (before ++ Token.kinds taken) rest r) :
    Takes level before (taken ++ rest) r := by
  obtain ⟨more, rfl, hr⟩ := h
  exact ⟨taken ++ more, by simp, by simpa using hr⟩

namespace Sound

variable {fuel : Nat} {demand : Option Token} {left : Condition} {before : List TokenKind}
  {tokens : List Token} {r : Condition × List Token}

/-- A disjunction starts with a conjunction, whose derivation the loop carries on. -/
theorem or_succ (h : Sound fuel) (hr : parseOr demand (fuel + 1) tokens = .ok r) :
    Takes .or [] tokens r := by
  rw [parseOr, bind_eq_ok_iff] at hr
  obtain ⟨⟨first, rest⟩, hfirst, htail⟩ := hr
  obtain ⟨taken, rfl, hd⟩ := h.and hfirst
  exact Takes.append (h.orTail (.conjunct hd) htail)

/-- One round of the loop adds an operand on the right; at any other token it stops. -/
theorem orTail_succ (h : Sound fuel) (hd : Derives .or before left)
    (hr : parseOrTail left (fuel + 1) tokens = .ok r) : Takes .or before tokens r := by
  cases tokens with
  | nil =>
      obtain rfl : (left, []) = r := Except.ok.inj hr
      exact Takes.done hd
  | cons token rest =>
      rw [parseOrTail] at hr
      split at hr
      · next hop =>
        rw [bind_eq_ok_iff] at hr
        obtain ⟨⟨right, rest'⟩, hright, htail⟩ := hr
        obtain ⟨taken, rfl, hd'⟩ := h.and hright
        -- the loop goes on from the longer chain
        have hchain := h.orTail (.or hd hd') htail
        rw [← List.cons_append]
        refine Takes.append ?_
        rw [Token.kinds_cons, hop]
        exact hchain
      · obtain rfl : (left, token :: rest) = r := Except.ok.inj hr
        exact Takes.done hd

/-- A conjunction starts with an operand, whose derivation the loop carries on. -/
theorem and_succ (h : Sound fuel) (hr : parseAnd demand (fuel + 1) tokens = .ok r) :
    Takes .and [] tokens r := by
  rw [parseAnd, bind_eq_ok_iff] at hr
  obtain ⟨⟨first, rest⟩, hfirst, htail⟩ := hr
  obtain ⟨taken, rfl, hd⟩ := h.unary hfirst
  exact Takes.append (h.andTail (.unary hd) htail)

/-- The same for a round of the loop for conjunctions. -/
theorem andTail_succ (h : Sound fuel) (hd : Derives .and before left)
    (hr : parseAndTail left (fuel + 1) tokens = .ok r) : Takes .and before tokens r := by
  cases tokens with
  | nil =>
      obtain rfl : (left, []) = r := Except.ok.inj hr
      exact Takes.done hd
  | cons token rest =>
      rw [parseAndTail] at hr
      split at hr
      · next hop =>
        rw [bind_eq_ok_iff] at hr
        obtain ⟨⟨right, rest'⟩, hright, htail⟩ := hr
        obtain ⟨taken, rfl, hd'⟩ := h.unary hright
        have hchain := h.andTail (.and hd hd') htail
        rw [← List.cons_append]
        refine Takes.append ?_
        rw [Token.kinds_cons, hop]
        exact hchain
      · obtain rfl : (left, token :: rest) = r := Except.ok.inj hr
        exact Takes.done hd

/-- A condition in parentheses, once the condition has been read. -/
theorem paren_succ {opening : Token} {rest : List Token} (hop : opening.kind = .openParen)
    {inner : Condition × List Token} (hinner : Takes .or [] rest inner)
    (hr : closeParen opening inner = .ok r) : Takes .unary [] (opening :: rest) r := by
  obtain ⟨t, tail⟩ := inner
  obtain ⟨taken, rfl, hd⟩ := hinner
  cases tail with
  | nil => simp [closeParen] at hr
  | cons closing tail =>
      rw [closeParen] at hr
      split at hr
      · next hclose =>
        obtain rfl : (t, tail) = r := Except.ok.inj hr
        refine ⟨opening :: taken ++ [closing], by simp, ?_⟩
        have hparen := Derives.paren hd
        simpa [hop, hclose] using Derives.primary hparen
      · simp at hr

/-- An operand is a negation, a condition in parentheses or a literal. -/
theorem unary_succ (h : Sound fuel) (hr : parseUnary demand (fuel + 1) tokens = .ok r) :
    Takes .unary [] tokens r := by
  cases tokens with
  | nil => simp [parseUnary] at hr
  | cons token rest =>
      rw [parseUnary] at hr
      split at hr
      · next text hkind =>
        obtain rfl : (leaf text, rest) = r := Except.ok.inj hr
        exact ⟨[token], rfl, by simpa [hkind] using Derives.primary (.literal text)⟩
      · next hkind =>
        rw [bind_eq_ok_iff] at hr
        obtain ⟨⟨child, rest'⟩, hchild, hr⟩ := hr
        obtain rfl : (child.not, rest') = r := Except.ok.inj hr
        obtain ⟨taken, rfl, hd⟩ := h.unary hchild
        exact ⟨token :: taken, rfl, by simpa [hkind] using Derives.not hd⟩
      · next hkind =>
        rw [bind_eq_ok_iff] at hr
        obtain ⟨inner, hinner, hclose⟩ := hr
        exact paren_succ hkind (h.or hinner) hclose
      all_goals simp at hr

end Sound

/-- **Soundness of the readers**, by induction on the fuel. -/
theorem sound (fuel : Nat) : Sound fuel := by
  induction fuel with
  | zero =>
      constructor <;> intros <;>
        simp_all [parseOr, parseOrTail, parseAnd, parseAndTail, parseUnary]
  | succ fuel ih =>
      exact ⟨ih.or_succ, ih.orTail_succ, ih.and_succ, ih.andTail_succ, ih.unary_succ⟩

/-! ### Completeness -/

/-- Tokens of a non-empty sequence of kinds have a first one, of the first kind. -/
theorem kinds_eq_cons {tokens : List Token} {kind : TokenKind} {kinds : List TokenKind}
    (h : Token.kinds tokens = kind :: kinds) :
    ∃ token rest, tokens = token :: rest ∧ token.kind = kind ∧ Token.kinds rest = kinds := by
  obtain ⟨token, rest, rfl, hkind, hrest⟩ := List.map_eq_cons_iff.mp h
  exact ⟨token, rest, rfl, hkind, hrest⟩

/-- One kind is that of one token. -/
theorem kinds_eq_singleton {tokens : List Token} {kind : TokenKind}
    (h : Token.kinds tokens = [kind]) : ∃ token, tokens = [token] ∧ token.kind = kind := by
  obtain ⟨token, rest, rfl, hkind, hrest⟩ := kinds_eq_cons h
  obtain rfl : rest = [] := List.map_eq_nil_iff.mp hrest
  exact ⟨token, rfl, hkind⟩

/-- Tokens of two sequences of kinds are cut where the sequences meet. -/
theorem kinds_eq_append {tokens : List Token} {left right : List TokenKind}
    (h : Token.kinds tokens = left ++ right) :
    ∃ a b, tokens = a ++ b ∧ Token.kinds a = left ∧ Token.kinds b = right := by
  obtain ⟨a, b, rfl, ha, hb⟩ := List.map_eq_append_iff.mp h
  exact ⟨a, b, rfl, ha, hb⟩

/-- Fuel that is **enough** to read any sentence at the front of some tokens. -/
def Enough (fuel : Nat) (tokens : List Token) : Prop := 3 * tokens.length + 1 ≤ fuel

/-- There is always a unit of fuel to spend. -/
theorem Enough.exists_succ {fuel : Nat} {tokens : List Token} (h : Enough fuel tokens) :
    ∃ n, fuel = n + 1 := ⟨fuel - 1, by unfold Enough at h; omega⟩

/-- One token is worth three units of fuel. -/
theorem Enough.cons {fuel : Nat} {token : Token} {rest : List Token}
    (h : Enough fuel (token :: rest)) : ∃ n, fuel = n + 3 ∧ Enough n rest := by
  unfold Enough at *
  rw [List.length_cons] at h
  exact ⟨fuel - 3, by omega, by omega⟩

/-- More fuel is enough as well. -/
theorem Enough.mono {n m : Nat} {tokens : List Token} (h : Enough n tokens) (hle : n ≤ m) :
    Enough m tokens := Nat.le_trans h hle

/-- What is enough for some tokens is enough for those at their end. -/
theorem Enough.of_append {fuel : Nat} {a b : List Token} (h : Enough fuel (a ++ b)) :
    Enough fuel b := by
  unfold Enough at *
  rw [List.length_append] at h
  omega

/-- The tokens do not start with `&&`, so that a chain of conjuncts ends in front of them. -/
def EndsConjuncts (rest : List Token) : Prop :=
  ∀ token ∈ rest.head?, token.kind ≠ .and

/-- At the end of the tokens a chain of conjuncts ends. -/
theorem endsConjuncts_nil : EndsConjuncts [] := nofun

/-- At any token but `&&` a chain of conjuncts ends. -/
theorem endsConjuncts_cons {token : Token} {rest : List Token} (h : token.kind ≠ .and) :
    EndsConjuncts (token :: rest) := by
  rintro _ ⟨⟩
  exact h

/-- The loop for conjunctions returns its left operand where the chain ends. -/
theorem parseAndTail_of_ends {t : Condition} {fuel : Nat} {rest : List Token}
    (hends : EndsConjuncts rest) (hfuel : Enough fuel rest) :
    parseAndTail t fuel rest = .ok (t, rest) := by
  obtain ⟨fuel, rfl⟩ := hfuel.exists_succ
  cases rest with
  | nil => rw [parseAndTail]
  | cons token rest => rw [parseAndTail, if_neg (hends token rfl)]

/-- The loop for disjunctions returns its left operand at any token but `||`. -/
theorem parseOrTail_of_ne {t : Condition} {fuel : Nat} {token : Token} {rest : List Token}
    (hne : token.kind ≠ .or) (hfuel : Enough fuel (token :: rest)) :
    parseOrTail t fuel (token :: rest) = .ok (t, token :: rest) := by
  obtain ⟨fuel, rfl⟩ := hfuel.exists_succ
  rw [parseOrTail, if_neg hne]

/-- **Reading on**: the reader of a level reads the sentence `kinds` with the tree `t` to
its end, whatever follows. The readers of chains have come to their loop then, with the
tree of the chain as the left operand; a chain of disjuncts ends with a chain of conjuncts,
which the tokens behind it must not continue. -/
def ReadsOn (kinds : List TokenKind) (t : Condition) : Precedence → Prop
  | .primary | .unary => ∀ demand fuel tokens rest, Token.kinds tokens = kinds →
      Enough fuel (tokens ++ rest) →
      parseUnary demand fuel (tokens ++ rest) = .ok (t, rest)
  | .and => ∀ demand fuel tokens rest, Token.kinds tokens = kinds →
      Enough fuel (tokens ++ rest) →
      ∃ fuel', Enough fuel' rest ∧
        parseAnd demand (fuel + 1) (tokens ++ rest) = parseAndTail t fuel' rest
  | .or => ∀ demand fuel tokens rest, Token.kinds tokens = kinds → EndsConjuncts rest →
      Enough fuel (tokens ++ rest) →
      ∃ fuel', Enough fuel' rest ∧
        parseOr demand (fuel + 2) (tokens ++ rest) = parseOrTail t fuel' rest

namespace ReadsOn

variable {kinds left right : List TokenKind} {t l r : Condition}

/-- A literal is read from its only token. -/
theorem literal (text : String) : ReadsOn [.literal text] (leaf text) .primary := by
  intro demand fuel tokens rest hkinds hfuel
  obtain ⟨token, rfl, hkind⟩ := kinds_eq_singleton hkinds
  obtain ⟨n, rfl⟩ := hfuel.exists_succ
  simp [parseUnary, hkind]

/-- Parentheses are read through to the closing one, and leave the tree as it is. -/
theorem paren (h : ReadsOn kinds t .or) :
    ReadsOn (.openParen :: kinds ++ [.closeParen]) t .primary := by
  intro demand fuel tokens rest hkinds hfuel
  obtain ⟨opening, tokens, rfl, hopen, htokens⟩ := kinds_eq_cons hkinds
  obtain ⟨taken, tokens, rfl, htaken, hclosing⟩ := kinds_eq_append htokens
  obtain ⟨closing, rfl, hclose⟩ := kinds_eq_singleton hclosing
  simp only [List.cons_append, List.append_assoc, List.nil_append] at hfuel ⊢
  obtain ⟨n, rfl, hn⟩ := hfuel.cons
  have hne : closing.kind ≠ .and ∧ closing.kind ≠ .or := by simp [hclose]
  obtain ⟨fuel', hfuel', hor⟩ :=
    h none n taken (closing :: rest) htaken (endsConjuncts_cons hne.1) hn
  have htail := parseOrTail_of_ne (t := t) hne.2 hfuel'
  simp [parseUnary, hopen, hor, htail, closeParen, hclose]

/-- A negation is read on as far as its operand. -/
theorem not (h : ReadsOn kinds t .unary) : ReadsOn (.not :: kinds) (.not t) .unary := by
  intro demand fuel tokens rest hkinds hfuel
  obtain ⟨token, tokens, rfl, hkind, htokens⟩ := kinds_eq_cons hkinds
  rw [List.cons_append] at hfuel ⊢
  obtain ⟨n, rfl, hn⟩ := hfuel.cons
  have hchild := h (some token) (n + 2) tokens rest htokens (hn.mono (by omega))
  simp [parseUnary, hkind, hchild, pure, Except.pure]

/-- An operand that is read to its end is a chain of one conjunct. -/
theorem unary (h : ReadsOn kinds t .unary) : ReadsOn kinds t .and := by
  intro demand fuel tokens rest hkinds hfuel
  refine ⟨fuel, hfuel.of_append, ?_⟩
  rw [parseAnd, h demand fuel tokens rest hkinds hfuel, ok_bind]

/-- The loop for conjunctions goes one operand further. -/
theorem and (hl : ReadsOn left l .and) (hr : ReadsOn right r .unary) :
    ReadsOn (left ++ .and :: right) (.and l r) .and := by
  intro demand fuel tokens rest hkinds hfuel
  obtain ⟨a, tokens, rfl, ha, htokens⟩ := kinds_eq_append hkinds
  obtain ⟨op, b, rfl, hop, hb⟩ := kinds_eq_cons htokens
  rw [List.append_assoc, List.cons_append] at hfuel ⊢
  obtain ⟨fuel₁, hfuel₁, hleft⟩ := hl demand fuel a (op :: (b ++ rest)) ha hfuel
  obtain ⟨n, rfl, hn⟩ := hfuel₁.cons
  have hn2 : Enough (n + 2) (b ++ rest) := hn.mono (by omega)
  refine ⟨n + 2, hn2.of_append, ?_⟩
  rw [hleft, parseAndTail, if_pos hop, hr (some op) (n + 2) b rest hb hn2, ok_bind]

/-- A chain of conjuncts in front of tokens that do not continue it is read as a whole. -/
theorem parseAnd_eq (h : ReadsOn kinds t .and) {demand : Option Token} {fuel : Nat}
    {tokens rest : List Token} (hkinds : Token.kinds tokens = kinds)
    (hends : EndsConjuncts rest) (hfuel : Enough fuel (tokens ++ rest)) :
    parseAnd demand (fuel + 1) (tokens ++ rest) = .ok (t, rest) := by
  obtain ⟨fuel', hfuel', htail⟩ := h demand fuel tokens rest hkinds hfuel
  rw [htail, parseAndTail_of_ends hends hfuel']

/-- A chain of conjuncts that ends in front of another token is a chain of one disjunct. -/
theorem conjunct (h : ReadsOn kinds t .and) : ReadsOn kinds t .or := by
  intro demand fuel tokens rest hkinds hends hfuel
  refine ⟨fuel + 1, hfuel.of_append.mono (by omega), ?_⟩
  rw [parseOr, h.parseAnd_eq hkinds hends hfuel, ok_bind]

/-- The loop for disjunctions goes one operand further. -/
theorem or (hl : ReadsOn left l .or) (hr : ReadsOn right r .and) :
    ReadsOn (left ++ .or :: right) (.or l r) .or := by
  intro demand fuel tokens rest hkinds hends hfuel
  obtain ⟨a, tokens, rfl, ha, htokens⟩ := kinds_eq_append hkinds
  obtain ⟨op, b, rfl, hop, hb⟩ := kinds_eq_cons htokens
  rw [List.append_assoc, List.cons_append] at hfuel ⊢
  have hne : op.kind ≠ .and := by simp [hop]
  obtain ⟨fuel₁, hfuel₁, hleft⟩ :=
    hl demand fuel a (op :: (b ++ rest)) ha (endsConjuncts_cons hne) hfuel
  obtain ⟨n, rfl, hn⟩ := hfuel₁.cons
  have hn1 : Enough (n + 1) (b ++ rest) := hn.mono (by omega)
  refine ⟨n + 2, hn1.of_append.mono (by omega), ?_⟩
  rw [hleft, parseOrTail, if_pos hop, hr.parseAnd_eq hb hends hn1, ok_bind]

end ReadsOn

/-- **Completeness of the readers**, by induction on the derivation. -/
theorem Derives.readsOn {level : Precedence} {kinds : List TokenKind} {t : Condition}
    (h : Derives level kinds t) : ReadsOn kinds t level := by
  induction h with
  | literal text => exact .literal text
  | paren _ ih => exact ih.paren
  | primary _ ih => exact ih
  | not _ ih => exact ih.not
  | unary _ ih => exact ih.unary
  | and _ _ ihl ihr => exact ihl.and ihr
  | conjunct _ ih => exact ih.conjunct
  | or _ _ ihl ihr => exact ihl.or ihr

/-! ### Reading is deriving -/

/-- A list of tokens is read as a tree exactly when its kinds derive the tree. -/
theorem parseTokens_eq_ok_iff {tokens : List Token} {t : Condition} :
    parseTokens tokens = .ok t ↔ Derives .or (Token.kinds tokens) t := by
  constructor
  · intro h
    rw [parseTokens, bind_eq_ok_iff] at h
    obtain ⟨⟨t', rest⟩, hor, h⟩ := h
    obtain ⟨taken, rfl, hd⟩ := (sound _).or hor
    cases rest with
    | nil =>
        obtain rfl : t' = t := Except.ok.inj h
        simpa using hd
    | cons token rest => simp at h
  · intro h
    have henough : Enough (4 * tokens.length + 2) (tokens ++ []) := by
      unfold Enough
      rw [List.append_nil]
      omega
    obtain ⟨fuel, hfuel, hor⟩ :=
      h.readsOn none (4 * tokens.length + 2) tokens [] rfl endsConjuncts_nil henough
    obtain ⟨n, rfl⟩ := hfuel.exists_succ
    rw [List.append_nil] at hor
    rw [parseTokens, hor, parseOrTail]
    rfl

/-- A text is read as a tree exactly when it is scanned into tokens that derive the tree. A
text of white space has no tokens and no tree. -/
theorem parse_eq_ok_iff {text : String} {t : Condition} :
    parse text = .ok t ↔
      ∃ tokens, Token.scan text.toList = .ok tokens ∧ Derives .or (Token.kinds tokens) t := by
  rw [parse]
  split
  · next hblank =>
    have hscan : Token.scan text.toList = .ok [] :=
      Token.scan_eq_ok_iff.mpr (Token.scans_blanks (List.all_eq_true.mp hblank))
    refine ⟨nofun, ?_⟩
    rintro ⟨tokens, htokens, hd⟩
    obtain rfl := Except.ok.inj (hscan.symm.trans htokens)
    exact absurd rfl hd.ne_nil
  · simp only [bind_eq_ok_iff, parseTokens_eq_ok_iff]

/-- The grammar is **unambiguous**: a sentence has one tree. -/
theorem Derives.unique {kinds : List TokenKind} {t t' : Condition}
    (h : Derives .or kinds t) (h' : Derives .or kinds t') : t = t' := by
  have hkinds : Token.kinds (kinds.map fun kind => ⟨kind, 0⟩) = kinds := by
    simp [Token.kinds, Function.comp_def]
  rw [← hkinds] at h h'
  exact Except.ok.inj ((parseTokens_eq_ok_iff.mpr h).symm.trans (parseTokens_eq_ok_iff.mpr h'))

/-- **Reading is deriving**: a text is read as a tree exactly when it is scanned into tokens
whose kinds derive the tree, and a sentence derives one tree only. -/
theorem parse_eq_ok_iff_derives (text : String) (t : Condition) :
    (parse text = .ok t ↔
      ∃ tokens, Token.scan text.toList = .ok tokens ∧
        Derives .or (Token.kinds tokens) t) ∧
    ∀ kinds t', Derives .or kinds t → Derives .or kinds t' → t' = t := by
  exact ⟨parse_eq_ok_iff, fun kinds t' h h' => h'.unique h⟩

end Condition

end AgentPipeline
