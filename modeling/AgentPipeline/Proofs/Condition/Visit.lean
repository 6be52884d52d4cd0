import AgentPipeline.Proofs.Condition.Grammar

/-!
# Visiting the leaves of a condition

A visitor is called with one leaf at a time. It has a state of its own, and it accepts a leaf or
rejects it with an error. A walk over a condition is the same as visiting the list of its leaves, in
any monad (`visitLeaves_eq_forM`). So a walk comes to its end exactly if the visitor accepts all the
leaves one after another, and otherwise it ends with the first leaf that is rejected, with the error
and the state of the visitor there (`visitAll_eq_error_iff`).

The leaves of a condition that has been read are the literals of the text, in the order of the text
(`Derives.leaves_eq`).
-/

namespace AgentPipeline

/-! ### Literals among tokens -/

/-- The text of a literal. -/
def TokenKind.literal? : TokenKind → Option String
  | .literal text => some text
  | _ => none

/-- The texts of the literals among some tokens, in order. -/
def Token.literals (tokens : List Token) : List String :=
  (kinds tokens).filterMap TokenKind.literal?

namespace Condition

/-! ### Walks -/

section Monad

variable {m : Type → Type} [Monad m] [LawfulMonad m] (visit : Leaf → m Unit)

mutual

/-- **A walk visits the list of the leaves**, by induction on the condition. -/
theorem visitLeaves_eq_forM (t : Condition) : t.visitLeaves visit = t.leaves.forM visit := by
  cases t with
  | expression l => simp [visitLeaves, leaves]
  | and l r | or l r | compare l _ r | contains l r =>
      simp [visitLeaves, leaves, visitLeaves_eq_forM l, visitLeaves_eq_forM r]
  | not c => rw [visitLeaves, leaves, visitLeaves_eq_forM c]
  | property | string | number | boolean => rfl
  | call _ arguments => rw [visitLeaves, leaves, visitLeavesOfList_eq_forM arguments]
  | ternary c t f =>
      simp [visitLeaves, leaves, visitLeaves_eq_forM c, visitLeaves_eq_forM t,
        visitLeaves_eq_forM f]
  | disjunction terms => rw [visitLeaves, leaves, visitLeavesOfList_eq_forM terms]

/-- A walk over some conditions visits their leaves one by one. -/
theorem visitLeavesOfList_eq_forM (ts : List Condition) :
    visitLeavesOfList visit ts = (leavesOfList ts).forM visit := by
  cases ts with
  | nil => rfl
  | cons t ts =>
      simp [visitLeavesOfList, leavesOfList, visitLeaves_eq_forM t, visitLeavesOfList_eq_forM ts]

end

end Monad

/-- Visitors with a state of type `σ` and errors of type `ε`. -/
abbrev Visitor (ε σ : Type) := Leaf → ExceptT ε (StateM σ) Unit

variable {ε σ : Type} {visit : Visitor ε σ} {s s₁ s₂ : σ} {l : Leaf} {ls ls' : List Leaf} {e : ε}

/-- The answer of a visitor to a leaf in a state, and its state then. -/
def answer (visit : Visitor ε σ) (l : Leaf) (s : σ) : Except ε Unit × σ :=
  (visit l).run.run s

/-- **The visitor accepts** these leaves one after another, and comes from one state to the
other. -/
inductive Accepts (visit : Visitor ε σ) : σ → List Leaf → σ → Prop
  | nil (s : σ) : Accepts visit s [] s
  | cons {s s₁ s₂ : σ} {l : Leaf} {ls : List Leaf} : answer visit l s = (.ok (), s₁) →
      Accepts visit s₁ ls s₂ → Accepts visit s (l :: ls) s₂

/-- **The visitor rejects** one of these leaves with an error, having accepted those in front of it;
those behind it are not visited. -/
def Rejects (visit : Visitor ε σ) (s : σ) (ls : List Leaf) (e : ε) (s₂ : σ) : Prop :=
  ∃ before l behind s₁, ls = before ++ l :: behind ∧ Accepts visit s before s₁ ∧
    answer visit l s₁ = (.error e, s₂)

/-- The result of visiting some leaves, and the state of the visitor then. -/
def visitAll (visit : Visitor ε σ) (ls : List Leaf) (s : σ) : Except ε Unit × σ :=
  (ls.forM visit).run.run s

/-- No leaves leave the state as it is. -/
theorem visitAll_nil (visit : Visitor ε σ) (s : σ) : visitAll visit [] s = (.ok (), s) := rfl

/-- The first leaf is visited, and the others if it is accepted. -/
theorem visitAll_cons (visit : Visitor ε σ) (l : Leaf) (ls : List Leaf) (s : σ) :
    visitAll visit (l :: ls) s =
      match answer visit l s with
      | (.ok (), s₁) => visitAll visit ls s₁
      | (.error e, s₁) => (.error e, s₁) := by
  change ((visit l).run >>= ExceptT.bindCont fun _ => List.forM ls visit).run s = _
  rw [StateT.run_bind]
  change (answer visit l s >>= _ : Id _) = _
  obtain ⟨r, s₁⟩ := answer visit l s
  cases r <;> rfl

/-- All leaves are visited if the visitor accepts one after another. -/
theorem visitAll_eq_ok_iff : visitAll visit ls s = (.ok (), s₂) ↔ Accepts visit s ls s₂ := by
  induction ls generalizing s with
  | nil =>
      rw [visitAll_nil]
      constructor
      · intro h
        obtain rfl : s = s₂ := (Prod.mk.inj h).2
        exact .nil s
      · rintro ⟨⟩
        rfl
  | cons l ls ih =>
      rw [visitAll_cons]
      constructor
      · intro h
        split at h
        · next s₁ hanswer => exact .cons hanswer (ih.mp h)
        · cases h
      · rintro (_ | ⟨hanswer, hrest⟩)
        rw [hanswer]
        exact ih.mpr hrest

/-- The first leaf is rejected, or it is accepted and a later one is rejected. -/
theorem rejects_cons_iff : Rejects visit s (l :: ls) e s₂ ↔
    answer visit l s = (.error e, s₂) ∨
      ∃ s₁, answer visit l s = (.ok (), s₁) ∧ Rejects visit s₁ ls e s₂ := by
  constructor
  · rintro ⟨before, l', behind, s₁, heq, haccepts, hanswer⟩
    cases haccepts with
    | nil =>
        obtain ⟨rfl, -⟩ := List.cons.inj heq
        exact .inl hanswer
    | cons hfirst hrest =>
        obtain ⟨rfl, rfl⟩ := List.cons.inj heq
        exact .inr ⟨_, hfirst, _, l', behind, s₁, rfl, hrest, hanswer⟩
  · rintro (hanswer | ⟨s₁, hfirst, before, l', behind, s', rfl, hrest, hanswer⟩)
    · exact ⟨[], l, ls, s, rfl, .nil s, hanswer⟩
    · exact ⟨l :: before, l', behind, s', rfl, .cons hfirst hrest, hanswer⟩

/-- Visiting fails at the first leaf that is rejected. -/
theorem visitAll_eq_error_iff :
    visitAll visit ls s = (.error e, s₂) ↔ Rejects visit s ls e s₂ := by
  induction ls generalizing s with
  | nil =>
      rw [visitAll_nil]
      constructor
      · rintro ⟨⟩
      · rintro ⟨before, l, behind, s₁, heq, -⟩
        simp at heq
  | cons l ls ih =>
      rw [visitAll_cons, rejects_cons_iff]
      split
      · next s₁ hanswer => simp [hanswer, ih]
      · next e' s₁ hanswer => simp [hanswer]

/-- The result of a walk over a condition, and the state of the visitor then. -/
def walk (visit : Visitor ε σ) (t : Condition) (s : σ) : Except ε Unit × σ :=
  (t.visitLeaves visit).run.run s

/-- A walk visits the leaves of its condition. -/
theorem walk_eq_visitAll (visit : Visitor ε σ) (t : Condition) (s : σ) :
    walk visit t s = visitAll visit t.leaves s := by
  rw [walk, visitLeaves_eq_forM, visitAll]

/-! ### Leaves of a text -/

/-- **The leaves of a sentence are its literals**, in order. -/
theorem Derives.leaves_eq {level : Precedence} {kinds : List TokenKind} {t : Condition}
    (h : Derives level kinds t) :
    t.leaves.map (·.text) = kinds.filterMap TokenKind.literal? := by
  induction h with
  | literal text => rfl
  | paren _ ih => simp [List.filterMap_cons, TokenKind.literal?, ih]
  | primary _ ih | unary _ ih | conjunct _ ih => exact ih
  | not _ ih => simp [leaves, List.filterMap_cons, TokenKind.literal?, ih]
  | and _ _ ihl ihr | or _ _ ihl ihr =>
      simp [leaves, List.filterMap_cons, TokenKind.literal?, ihl, ihr]

/-- The leaves of a condition that has been read are the literals of its text. -/
theorem leaves_of_parse {text : String} {t : Condition} (h : parse text = .ok t) :
    ∃ tokens, Token.scan text.toList = .ok tokens ∧
      t.leaves.map (·.text) = Token.literals tokens := by
  obtain ⟨tokens, hscan, hd⟩ := parse_eq_ok_iff.mp h
  exact ⟨tokens, hscan, hd.leaves_eq⟩

/-- **A walk visits the leaves from left to right** up to the first one that is rejected. It
succeeds exactly if the visitor accepts all of them, one after another; otherwise it ends with the
error of the visitor and in the state the visitor has come to then, whatever it keeps there. And the
leaves of a condition that has been read are the literals of the text, in order. -/
theorem walk_leaves_and_literals :
    (∀ (ε σ : Type) (visit : Visitor ε σ) (t : Condition) (s s₂ : σ),
      (walk visit t s = (.ok (), s₂) ↔ Accepts visit s t.leaves s₂) ∧
        ∀ e, walk visit t s = (.error e, s₂) ↔ Rejects visit s t.leaves e s₂) ∧
      ∀ (text : String) (t : Condition), parse text = .ok t →
        ∃ tokens, Token.scan text.toList = .ok tokens ∧
          t.leaves.map (·.text) = Token.literals tokens := by
  refine ⟨fun ε σ visit t s s₂ => ?_, fun text t => leaves_of_parse⟩
  rw [walk_eq_visitAll]
  exact ⟨visitAll_eq_ok_iff, fun e => visitAll_eq_error_iff⟩

/-- A visitor that notes the texts it is called with, and rejects this one. -/
def noting (unwanted : String) : Visitor String (List String) := fun l => do
  modify (· ++ [l.text])
  if l.text = unwanted then throw ("no " ++ unwanted)

/-- The literal behind the one that is rejected is not visited. -/
theorem walk_leaves_and_literals_noting :
    ∃ t tokens, parse "!(a) && ('b' || c)" = .ok t ∧
      Token.scan "!(a) && ('b' || c)".toList = .ok tokens ∧
        t.leaves.map (·.text) = Token.literals tokens ∧
          walk (noting "'b'") t [] = (.error "no 'b'", ["a", "'b'"]) := by
  let t : Condition := .and (.not (leaf "a")) (.or (leaf "'b'") (leaf "c"))
  have hleaf (text : String) : Derives .unary [.literal text] (leaf text) :=
    .primary (.literal text)
  have hparen {kinds} {t} (h : Derives .or kinds t) :
      Derives .unary (.openParen :: kinds ++ [.closeParen]) t := .primary (.paren h)
  have hparse : parse "!(a) && ('b' || c)" = .ok t := by
    refine parse_eq_ok_iff.mpr ⟨[⟨.not, 0⟩, ⟨.openParen, 1⟩, ⟨.literal "a", 2⟩, ⟨.closeParen, 3⟩,
      ⟨.and, 5⟩, ⟨.openParen, 8⟩, ⟨.literal "'b'", 9⟩, ⟨.or, 13⟩, ⟨.literal "c", 16⟩,
      ⟨.closeParen, 17⟩], by decide, ?_⟩
    have hleft := Derives.not (hparen (.conjunct (.unary (hleaf "a"))))
    have hright := hparen (.or (.conjunct (.unary (hleaf "'b'"))) (.unary (hleaf "c")))
    exact .conjunct (.and (.unary hleft) hright)
  obtain ⟨tokens, hscan, hleaves⟩ := walk_leaves_and_literals.2 _ _ hparse
  refine ⟨t, tokens, hparse, hscan, hleaves, ?_⟩
  refine ((walk_leaves_and_literals.1 _ _ (noting "'b'") t [] _).2 _).mpr ?_
  exact ⟨[⟨"a", none⟩], ⟨"'b'", none⟩, [⟨"c", none⟩], ["a"], rfl, .cons rfl (.nil _), rfl⟩

end Condition

end AgentPipeline
