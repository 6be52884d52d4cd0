import AgentPipeline.Proofs.Condition.Rendering

/-!
# The meaning of conditions

The runner decides the texts at the leaves of a condition; what the operators make of them
is fixed. A **valuation** assigns a truth value to each such text, and `Condition.eval` is the
truth value of a condition under a valuation: `&&`, `||`, `!` and disjunctions have their
usual meaning, and every other condition means what its text is assigned.

The text of a condition is `Readable` if the condition spells a tree. Such a condition keeps
its meaning when it is written down and read back (`Readable.exists_parse`), and so does a
conjunction of readable conditions, however many there are (`exists_parse_conjunction`).
-/

namespace AgentPipeline.Condition

mutual

/-- The truth value of a condition under a valuation of texts. -/
def eval (v : String → Bool) : Condition → Bool
  | .and l r => l.eval v && r.eval v
  | .or l r => l.eval v || r.eval v
  | .not c => !c.eval v
  | .disjunction terms _ => evalAny v terms
  | .expression l => v (Condition.expression l).render
  | .compare l op r => v (Condition.compare l op r).render
  | .property path => v (Condition.property path).render
  | .string value => v (Condition.string value).render
  | .number text => v (Condition.number text).render
  | .boolean value => v (Condition.boolean value).render
  | .call f args => v (Condition.call f args).render
  | .contains array value => v (Condition.contains array value).render
  | .ternary c t f => v (Condition.ternary c t f).render

/-- Whether any of several conditions is true under a valuation. -/
def evalAny (v : String → Bool) : List Condition → Bool
  | [] => false
  | c :: cs => c.eval v || evalAny v cs

end

/-- An atom means what its text is assigned. -/
theorem eval_of_isAtom {c : Condition} (h : c.IsAtom) (v : String → Bool) :
    c.eval v = v c.render := by
  cases c <;> first | exact h.elim | rw [eval]

/-- The valuation decides a leaf. -/
@[simp] theorem eval_leaf (v : String → Bool) (text : String) :
    (leaf text).eval v = v text := by
  rw [leaf, eval, render]

/-- A conjunction is true if both operands are. -/
@[simp] theorem eval_and (v : String → Bool) (l r : Condition) :
    (Condition.and l r).eval v = (l.eval v && r.eval v) := by rw [eval]

/-- A disjunction is true if one of the operands is. -/
@[simp] theorem eval_or (v : String → Bool) (l r : Condition) :
    (Condition.or l r).eval v = (l.eval v || r.eval v) := by rw [eval]

/-- A negation is true if its operand is not. -/
@[simp] theorem eval_not (v : String → Bool) (c : Condition) :
    (Condition.not c).eval v = !c.eval v := by rw [eval]

/-- The tree that a condition spells has the meaning of the condition. -/
theorem Spells.eval_eq {c t : Condition} (h : Spells c t) (v : String → Bool) :
    t.eval v = c.eval v := by
  induction h with
  | atom hatom _ => rw [eval_leaf, eval_of_isAtom hatom]
  | and _ _ ihl ihr => rw [eval_and, eval_and, ihl, ihr]
  | or _ _ ihl ihr => rw [eval_or, eval_or, ihl, ihr]
  | not _ ih => rw [eval_not, eval_not, ih]

/-- The text is read as a condition with this truth value. -/
def Evaluates (v : String → Bool) (text : String) (value : Bool) : Prop :=
  ∃ t, parse text = .ok t ∧ t.eval v = value

/-- Any reading of a text settles its truth value. -/
theorem evaluates_iff {v : String → Bool} {text : String} {t : Condition}
    (h : parse text = .ok t) (value : Bool) : Evaluates v text value ↔ t.eval v = value := by
  refine ⟨?_, fun hvalue => ⟨t, h, hvalue⟩⟩
  rintro ⟨t', h', hvalue⟩
  obtain rfl := Except.ok.inj (h.symm.trans h')
  exact hvalue

/-! ### Readable conditions -/

/-- A condition whose text is read as a tree of its operators. -/
def Readable (c : Condition) : Prop := ∃ t, Spells c t

namespace Readable

variable {c l r : Condition}

/-- A condition without operators is readable if its text is a literal. -/
theorem atom (hatom : c.IsAtom) (h : Token.IsLiteral c.render.toList) : Readable c :=
  ⟨_, .atom hatom h⟩

/-- A conjunction is readable if its operands are. -/
theorem and (hl : Readable l) (hr : Readable r) : Readable (.and l r) := by
  obtain ⟨l', hl⟩ := hl
  obtain ⟨r', hr⟩ := hr
  exact ⟨.and l' r', .and hl hr⟩

/-- A disjunction is readable if its operands are. -/
theorem or (hl : Readable l) (hr : Readable r) : Readable (.or l r) := by
  obtain ⟨l', hl⟩ := hl
  obtain ⟨r', hr⟩ := hr
  exact ⟨.or l' r', .or hl hr⟩

/-- A negation is readable if its operand is. -/
theorem not (h : Readable c) : Readable (.not c) := by
  obtain ⟨c', h⟩ := h
  exact ⟨.not c', .not h⟩

/-- **Rendering keeps the meaning**: the text of a readable condition is read as a tree of
the same meaning. -/
theorem exists_parse (h : Readable c) :
    ∃ t, parse c.render = .ok t ∧ ∀ v, t.eval v = c.eval v := by
  obtain ⟨t, ht⟩ := h
  exact ⟨t, ht.parse_render, ht.eval_eq⟩

end Readable

/-- What has been read can be read again. -/
theorem readable_of_parse {text : String} {t : Condition} (h : parse text = .ok t) :
    Readable t := ⟨t, spells_of_parse h⟩

/-! ### Conjunctions -/

/-- No conditions have no conjunction. -/
theorem conjunction_eq_none_iff {cs : List Condition} :
    conjunction cs = none ↔ cs = [] := by
  cases cs <;> simp [conjunction]

/-- Conditions added to a conjunction leave it readable. -/
theorem readable_foldl_and {c : Condition} {cs : List Condition} (hc : Readable c)
    (hcs : ∀ d ∈ cs, Readable d) : Readable (cs.foldl .and c) := by
  induction cs generalizing c with
  | nil => exact hc
  | cons d cs ih =>
      rw [List.forall_mem_cons] at hcs
      exact ih (hc.and hcs.1) hcs.2

/-- A conjunction of readable conditions is readable. -/
theorem readable_conjunction {cs : List Condition} {c : Condition}
    (hcs : ∀ d ∈ cs, Readable d) (h : conjunction cs = some c) : Readable c := by
  cases cs with
  | nil => cases h
  | cons d cs =>
      obtain rfl := Option.some.inj h
      rw [List.forall_mem_cons] at hcs
      exact readable_foldl_and hcs.1 hcs.2

/-- Conditions added to a conjunction have to be true as well. -/
theorem eval_foldl_and (v : String → Bool) (c : Condition) (cs : List Condition) :
    (cs.foldl .and c).eval v = (c.eval v && cs.all (·.eval v)) := by
  induction cs generalizing c with
  | nil => simp
  | cons d cs ih => rw [List.foldl_cons, ih, eval_and, List.all_cons, Bool.and_assoc]

/-- A conjunction is true if all its conditions are. -/
theorem eval_conjunction {cs : List Condition} {c : Condition} (h : conjunction cs = some c)
    (v : String → Bool) : c.eval v = cs.all (·.eval v) := by
  cases cs with
  | nil => cases h
  | cons d cs =>
      obtain rfl := Option.some.inj h
      rw [eval_foldl_and, List.all_cons]

/-- **Conjunctions**: the text of the conjunction of readable conditions is read as a tree
that is true exactly when all of the conditions are. -/
theorem exists_parse_conjunction {cs : List Condition} {c : Condition}
    (hcs : ∀ d ∈ cs, Readable d) (h : conjunction cs = some c) :
    ∃ t, parse c.render = .ok t ∧ ∀ v, t.eval v = cs.all (·.eval v) := by
  obtain ⟨t, ht, heval⟩ := (readable_conjunction hcs h).exists_parse
  exact ⟨t, ht, fun v => (heval v).trans (eval_conjunction h v)⟩

end AgentPipeline.Condition
