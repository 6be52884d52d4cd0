import AgentPipeline.Proofs.Condition.Meaning

/-!
# Reading disjunctions

A disjunction writes its terms side by side, with `||` between them and no parentheses around
them. Two things could go wrong when such a text is read back: a term could be torn apart by an
operator next to it, and the tree that is read differs from the one that was written wherever
a term is a disjunction itself, because `||` nests to the left.

Neither touches the meaning. `||` binds loosest, so a sentence of the grammar on each of its
sides makes a sentence again, whose tree is another one but true under the same valuations
(`Derives.exists_or`). A text **conveys** a truth function if its tokens derive a tree with this
truth function (`Conveys`); every form of condition hands this on from its operands to itself,
and hence the text of a condition that is composed of atoms and operators in any way is read
as a condition with the same meaning (`exists_parse_of_composed`).
-/

namespace AgentPipeline.Condition

open Token (IsLiteral Delimits Reads delimits_nil)

/-! ### Chains of disjuncts -/

/-- A chain of disjuncts on each side of `||` is one chain. Its tree nests to the left,
whatever the two trees are. -/
theorem Derives.exists_or {left right : List TokenKind} {l r : Condition}
    (hl : Derives .or left l) (hr : Derives .or right r) :
    ∃ t, Derives .or (left ++ .or :: right) t ∧
      ∀ v, t.eval v = (l.eval v || r.eval v) := by
  generalize hlevel : Precedence.or = level at hr
  -- the chain on the right is taken apart from its end
  induction hr with
  | literal | paren | primary | not | unary | and => cases hlevel
  | conjunct hr => exact ⟨.or l _, .or hl hr, fun v => eval_or v l _⟩
  | @or right₁ right₂ r₁ r₂ _ hr₂ ih =>
      obtain ⟨t, ht, heval⟩ := ih rfl
      refine ⟨.or t r₂, ?_, fun v => ?_⟩
      · have hchain := Derives.or ht hr₂
        rwa [List.append_assoc, List.cons_append] at hchain
      · rw [eval_or, eval_or, heval, Bool.or_assoc]

/-! ### Texts and truth functions -/

/-- **Conveying**: in front of everything that may stand behind a literal, the text has the
tokens of a condition that is true under these valuations. -/
def Conveys (cs : List Char) (value : (String → Bool) → Bool) : Prop :=
  ∃ kinds t, Embeds cs kinds ∧ Derives .or kinds t ∧ ∀ v, t.eval v = value v

namespace Conveys

variable {a b cs : List Char} {x y value : (String → Bool) → Bool}

/-- A literal conveys what it is assigned. -/
theorem literal {text : String} (h : IsLiteral text.toList) :
    Conveys text.toList fun v => v text := by
  refine ⟨[.literal text], leaf text, ?_, ?_, fun v => eval_leaf v text⟩
  · simpa using embeds_literal h
  · exact .conjunct (.unary (.primary (.literal text)))

/-- A conjunction conveys the conjunction. -/
theorem and (ha : Conveys a x) (hb : Conveys b y) :
    Conveys ('(' :: a ++ ')' :: ' ' :: ['&', '&'] ++ ' ' :: '(' :: b ++ [')'])
      fun v => x v && y v := by
  obtain ⟨left, l, hleft, hl, hx⟩ := ha
  obtain ⟨right, r, hright, hr, hy⟩ := hb
  refine ⟨_, .and l r, Embeds.binary ['&', '&'] Reads.and hleft hright, ?_, fun v => ?_⟩
  · have h := Derives.and (.unary (.primary (.paren hl))) (.primary (.paren hr))
    simpa using Derives.conjunct h
  · rw [eval_and, hx, hy]

/-- A disjunction of two operands in parentheses conveys the disjunction. -/
theorem or (ha : Conveys a x) (hb : Conveys b y) :
    Conveys ('(' :: a ++ ')' :: ' ' :: ['|', '|'] ++ ' ' :: '(' :: b ++ [')'])
      fun v => x v || y v := by
  obtain ⟨left, l, hleft, hl, hx⟩ := ha
  obtain ⟨right, r, hright, hr, hy⟩ := hb
  refine ⟨_, .or l r, Embeds.binary ['|', '|'] Reads.or hleft hright, ?_, fun v => ?_⟩
  · have h := Derives.or (.conjunct (.unary (.primary (.paren hl))))
      (.unary (.primary (.paren hr)))
    simpa using h
  · rw [eval_or, hx, hy]

/-- A negation conveys the negation. -/
theorem not (h : Conveys cs value) :
    Conveys ('!' :: '(' :: cs ++ [')']) fun v => !value v := by
  obtain ⟨kinds, t, hembeds, ht, heval⟩ := h
  refine ⟨_, .not t, hembeds.not, ?_, fun v => ?_⟩
  · have h := Derives.not (.primary (.paren ht))
    simpa using Derives.conjunct (.unary h)
  · rw [eval_not, heval]

/-- `||` behind white space may stand behind a literal. -/
theorem delimits_or (rest : List Char) : Delimits (' ' :: '|' :: '|' :: rest) := by
  refine ⟨by simp, by simp, [' '], '|' :: '|' :: rest, rfl, ?_, by simp, ?_⟩
  · exact Text.blanks_cons.mpr ⟨by decide, Text.blanks_nil⟩
  · exact ⟨⟨rfl, rfl⟩, by simp, by simp [Token.symbolAt]⟩

/-- Two texts side by side, with `||` between them and white space of any kind behind it. -/
theorem beside {blank : Char} (hblank : Text.isBlank blank = true) (ha : Conveys a x)
    (hb : Conveys b y) : Conveys (a ++ ' ' :: '|' :: '|' :: blank :: b) fun v => x v || y v := by
  obtain ⟨left, l, hleft, hl, hx⟩ := ha
  obtain ⟨right, r, hright, hr, hy⟩ := hb
  obtain ⟨t, ht, heval⟩ := hl.exists_or hr
  refine ⟨_, t, ?_, ht, fun v => ?_⟩
  · intro rest ks hrest hreads
    have hspace : Text.isBlank ' ' = true := by decide
    have hafter := (((hright rest ks hrest hreads).blank hblank).or).blank hspace
    simpa using hleft _ _ (delimits_or _) hafter
  · rw [heval, hx, hy]

/-- A text that stands alone is read as a condition of the meaning that it conveys. -/
theorem exists_parse {text : String} (h : Conveys text.toList value) :
    ∃ t, parse text = .ok t ∧ ∀ v, t.eval v = value v := by
  obtain ⟨kinds, t, hembeds, ht, heval⟩ := h
  obtain ⟨tokens, htokens, hkinds⟩ := hembeds [] [] delimits_nil Reads.nil 0
  rw [List.append_nil] at htokens hkinds
  have hd : Derives .or (Token.kinds tokens) t := hkinds ▸ ht
  exact ⟨t, parse_eq_ok_iff.mpr ⟨tokens, Token.scan_eq_ok_iff.mpr htokens, hd⟩, heval⟩

end Conveys

/-! ### The text of a disjunction -/

/-- What stands between two terms of a disjunction. -/
def termSeparator (multiline : Bool) : String :=
  if multiline then " ||\n" else " || "

/-- Any of some terms is true. -/
theorem evalAny_eq_any (v : String → Bool) (terms : List Condition) :
    evalAny v terms = terms.any (·.eval v) := by
  induction terms with
  | nil => rw [evalAny, List.any_nil]
  | cons term terms ih => rw [evalAny, ih, List.any_cons]

/-- A disjunction is true if any of its terms is, however they are laid out. -/
@[simp] theorem eval_disjunction (v : String → Bool) (terms : List Condition) (multiline : Bool) :
    (Condition.disjunction terms multiline).eval v = terms.any (·.eval v) := by
  rw [eval, evalAny_eq_any]

/-- A term without a description has no comment. -/
theorem comment_eq_nil {term : Condition} (h : term.description = none) : term.comment = [] := by
  rw [comment, h]

/-- Terms without descriptions have no comments above them. -/
theorem renderTerms_eq_map {terms : List Condition}
    (h : ∀ term ∈ terms, term.description = none) :
    renderTerms terms = terms.map fun term => ([], term.render) := by
  induction terms with
  | nil => rw [renderTerms, List.map_nil]
  | cons term terms ih =>
      rw [List.forall_mem_cons] at h
      rw [renderTerms, comment_eq_nil h.1, ih h.2, List.map_cons]

/-- Terms have lines. -/
theorem joinLines_ne_nil {terms : List (List String × String)} (h : terms ≠ []) :
    joinLines terms ≠ [] := by
  rcases terms with _ | ⟨⟨comments, text⟩, _ | ⟨term, terms⟩⟩
  · exact absurd rfl h
  · simp [joinLines]
  · simp [joinLines]

/-- Lines without comments are the texts with the operator at the ends of the lines. -/
theorem intercalate_joinLines (texts : List String) :
    "\n".intercalate (joinLines (texts.map fun text => ([], text))) =
      " ||\n".intercalate texts := by
  induction texts with
  | nil => rfl
  | cons text texts ih =>
      cases texts with
      | nil => rfl
      | cons text' texts =>
          have hlines : joinLines ((text :: text' :: texts).map fun text => ([], text)) =
              (text ++ " ||") :: joinLines ((text' :: texts).map fun text => ([], text)) := rfl
          have hne : joinLines ((text' :: texts).map fun text => ([], text)) ≠ [] :=
            joinLines_ne_nil (by simp)
          have hsep : text ++ " ||" ++ "\n" = text ++ " ||\n" := by
            rw [String.append_assoc]
            rfl
          rw [hlines, String.intercalate_cons_of_ne_nil hne, ih, String.intercalate_cons_cons, hsep]

/-- The text of a disjunction is the texts of its terms with `||` between them. -/
theorem render_disjunction {terms : List Condition} (multiline : Bool)
    (h : ∀ term ∈ terms, term.description = none) :
    (Condition.disjunction terms multiline).render =
      (termSeparator multiline).intercalate (terms.map render) := by
  have hterms : renderTerms terms = (terms.map render).map fun text => ([], text) := by
    rw [renderTerms_eq_map h, List.map_map]
    rfl
  rw [render, hterms]
  rcases terms.map render with _ | ⟨text, _ | ⟨text', texts⟩⟩
  · rfl
  · rfl
  · cases multiline with
    | false => simp [joinTerms, termSeparator, Function.comp_def]
    | true => exact intercalate_joinLines (text :: text' :: texts)

/-! ### Conditions of every form -/

/-- Terms side by side convey that any of them is true, on however many lines. -/
theorem conveys_intercalate (multiline : Bool) {terms : List Condition} (hne : terms ≠ [])
    (h : ∀ term ∈ terms, Conveys term.render.toList fun v => term.eval v) :
    Conveys ((termSeparator multiline).intercalate (terms.map render)).toList
      fun v => terms.any (·.eval v) := by
  induction terms with
  | nil => exact absurd rfl hne
  | cons term terms ih =>
      rw [List.forall_mem_cons] at h
      cases terms with
      | nil => simpa using h.1
      | cons term' terms =>
          have hrest := ih (List.cons_ne_nil term' terms) h.2
          rw [List.map_cons, List.map_cons, String.intercalate_cons_cons, ← List.map_cons]
          have hany : ∀ v : String → Bool, (term :: term' :: terms).any (·.eval v) =
              (term.eval v || (term' :: terms).any (·.eval v)) := fun _ => List.any_cons
          simp only [hany]
          cases multiline with
          | false =>
              have hspace : Text.isBlank ' ' = true := by decide
              simpa [termSeparator] using Conveys.beside hspace h.1 hrest
          | true =>
              have hbreak : Text.isBlank '\n' = true := by decide
              simpa [termSeparator] using Conveys.beside hbreak h.1 hrest

/-- The text of the condition is scanned into one literal token, which is the whole text. -/
def ScansAlone (c : Condition) : Prop :=
  ∃ position, Token.scan c.render.toList = .ok [⟨.literal c.render, position⟩]

/-- What is scanned as one token is a literal. -/
theorem ScansAlone.isLiteral {c : Condition} (h : c.ScansAlone) :
    IsLiteral c.render.toList := by
  obtain ⟨position, hscan⟩ := h
  exact (Token.scan_eq_ok_iff.mp hscan).isLiteral (by simp)

/-- **Composed conditions**: atoms whose text is one literal, and operators and disjunctions of
any number of terms over them, in any order. -/
inductive Composed : Condition → Prop
  | atom {c : Condition} : c.IsAtom → c.ScansAlone → Composed c
  | and {l r : Condition} : Composed l → Composed r → Composed (.and l r)
  | or {l r : Condition} : Composed l → Composed r → Composed (.or l r)
  | not {c : Condition} : Composed c → Composed (.not c)
  | disjunction {terms : List Condition} (multiline : Bool) : terms ≠ [] →
      (∀ term ∈ terms, term.description = none) → (∀ term ∈ terms, Composed term) →
      Composed (.disjunction terms multiline)

/-- **The text of a condition conveys its meaning**, by induction on the condition. -/
theorem Composed.conveys {c : Condition} (h : c.Composed) :
    Conveys c.render.toList fun v => c.eval v := by
  induction h with
  | atom hatom hscans =>
      simp only [eval_of_isAtom hatom]
      exact Conveys.literal hscans.isLiteral
  | and _ _ ihl ihr => simpa [render] using ihl.and ihr
  | or _ _ ihl ihr => simpa [render] using ihl.or ihr
  | not _ ih => simpa [render] using ih.not
  | disjunction multiline hne hdescription _ ih =>
      simp only [eval_disjunction]
      rw [render_disjunction multiline hdescription]
      exact conveys_intercalate multiline hne ih

/-- **Rendering preserves meaning.** The text of a composed condition is read as a condition
that is true under the same valuations of the texts of the atoms. -/
theorem exists_parse_of_composed {c : Condition} (h : c.Composed) :
    ∃ t, parse c.render = .ok t ∧ ∀ v, t.eval v = c.eval v :=
  h.conveys.exists_parse

/-- Only a disjunction is written differently with one term per line. -/
theorem renderLines_cases (c : Condition) :
    c.renderLines = c.render ∨ ∃ terms multiline, c = .disjunction terms multiline := by
  cases c with
  | disjunction terms multiline => exact .inr ⟨terms, multiline, rfl⟩
  | _ => exact .inl rfl

/-- The text with one term per line is read as a condition of the same meaning, too. -/
theorem exists_parse_renderLines {c : Condition} (h : c.Composed) :
    ∃ t, parse c.renderLines = .ok t ∧ ∀ v, t.eval v = c.eval v := by
  rcases c.renderLines_cases with hsame | ⟨terms, multiline, rfl⟩
  · rw [hsame]
    exact h.conveys.exists_parse
  · cases h with
    | atom hatom => exact hatom.elim
    | disjunction multiline hne hdescription hterms =>
        have hconveys := (Composed.disjunction true hne hdescription hterms).conveys
        simp only [eval_disjunction] at hconveys ⊢
        exact hconveys.exists_parse

/-- A negated disjunction on two lines, of a conjunction and of another disjunction, whose terms
stand in one chain with its own. -/
theorem exists_parse_nested_disjunctions :
    let inner : Condition := .disjunction [.property "c", .boolean true, .not (leaf "d")] false
    let c : Condition := .not (.disjunction [.and (leaf "a == 'x || y'") (leaf "f(b)"), inner] true)
    c.render =
        "!((a == 'x || y') && (f(b)) ||\nc || true || !(d))" ∧
      ∃ t, parse c.render = .ok t ∧ ∀ v, t.eval v = c.eval v := by
  intro inner c
  have hleaf : ∀ text, Token.scan text.toList = .ok [⟨.literal text, 0⟩] →
      (leaf text).Composed :=
    fun text hscan => .atom trivial ⟨0, by rwa [leaf, render]⟩
  have hinner : inner.Composed := by
    refine .disjunction false (by simp) (by simp [description]) ?_
    simp only [List.forall_mem_cons]
    refine ⟨.atom trivial ⟨0, ?_⟩, .atom trivial ⟨0, ?_⟩, .not (hleaf "d" ?_),
      List.forall_mem_nil _⟩
    all_goals decide +kernel
  have hc : c.Composed := by
    refine .not (.disjunction true (by simp) (by simp [inner, description]) ?_)
    simp only [List.forall_mem_cons]
    refine ⟨.and (hleaf "a == 'x || y'" ?_) (hleaf "f(b)" ?_), hinner, List.forall_mem_nil _⟩
    all_goals decide +kernel
  exact ⟨by decide +kernel, exists_parse_of_composed hc⟩

end AgentPipeline.Condition
