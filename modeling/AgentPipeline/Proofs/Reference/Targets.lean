import AgentPipeline.Proofs.Condition.Disjunction
import AgentPipeline.Proofs.Reference.Names

/-!
# What references name

A reference in a text is a path, a run of letters, digits, underscores, dashes and points that
ends in front of any other character. Paths of three forms name something that has to be there
when the text is evaluated, their **target**: the result of another job, an output of another
job, or an output of a step.

Two texts side by side have the targets of each, unless a path reaches over the border between
them. This cannot happen behind a text that **opens** paths, nor in front of one that **closes**
them (`targets_append`). The operators of conditions do both, so a condition has the targets of
its operands.

A text may be put together from what an author supplies and what is written around it. It is
**grounded** if the targets around what is supplied resolve (`Grounded`).
-/

namespace AgentPipeline.Reference

/-- **What a reference names.** -/
inductive Target where
  /-- the result of a job -/
  | result (job : String)
  /-- an output of a job -/
  | jobOutput (job output : String)
  /-- an output of a step of the same job -/
  | stepOutput (step output : String)
  deriving Repr, DecidableEq

/-- The characters of paths: those of names, and the points between them. -/
def isPathChar (c : Char) : Bool := isNameChar c || c == '.'

/-- What a path names, unless it is something else. -/
def Target.ofPath? (path : List Char) : Option Target :=
  match (path.splitOn '.').map String.ofList with
  | ["needs", job, "result"] => some (.result job)
  | ["needs", job, "outputs", output] => some (.jobOutput job output)
  | ["steps", step, "outputs", output] => some (.stepOutput step output)
  | _ => none

/-- The targets of the paths in a text. -/
def targetsOf (cs : List Char) : List Target :=
  (cs.splitOnP fun c => !isPathChar c).filterMap Target.ofPath?

/-- The targets of a text, in the order in which they are named. -/
def targets (text : String) : List Target := targetsOf text.toList

example : targets "always() && (needs.agent.outputs.has_patch == 'true')" =
    [.jobOutput "agent" "has_patch"] := by decide +kernel

example : targets "github.event.needs.outputs.sum" = [] := by decide +kernel

/-! ### Texts side by side -/

variable {xs ys : List Char} {c : Char} {a b text front back : String} {t : Target}

/-- A character that no path has in it separates the targets in front of it from those behind it. -/
theorem targetsOf_append_cons (hc : isPathChar c = false) :
    targetsOf (xs ++ c :: ys) = targetsOf xs ++ targetsOf ys := by
  have hsep : (!isPathChar c) = true := by rw [hc, Bool.not_false]
  rw [targetsOf, List.splitOnP_append_cons (p := fun c => !isPathChar c) xs ys hsep,
    List.filterMap_append, targetsOf, targetsOf]

/-- Such a character at the front of a text names nothing. -/
theorem targetsOf_cons (hc : isPathChar c = false) : targetsOf (c :: ys) = targetsOf ys := by
  have h : targetsOf ([] ++ c :: ys) = targetsOf [] ++ targetsOf ys := targetsOf_append_cons hc
  exact h

/-- Behind the text a path can only start. -/
def Opens (a : String) : Prop := ∀ c ∈ a.toList.getLast?, isPathChar c = false

/-- In front of the text a path can only end. -/
def Closes (b : String) : Prop := ∀ c ∈ b.toList.head?, isPathChar c = false

-- not by trying all characters
instance : Decidable (Opens a) := Option.decidableForallMem a.toList.getLast?

instance : Decidable (Closes b) := Option.decidableForallMem b.toList.head?

/-- A text opens paths if its end does. -/
theorem Opens.append (hb : Opens b) (hne : b.toList ≠ []) (a : String) : Opens (a ++ b) := by
  obtain ⟨d, hd⟩ := Option.ne_none_iff_exists'.mp (mt List.getLast?_eq_none_iff.mp hne)
  intro c hc
  rw [String.toList_append, List.getLast?_append, hd, Option.some_or] at hc
  exact hb c (hd.trans hc)

/-- A text closes paths if its beginning does. -/
theorem Closes.append (ha : Closes a) (hne : a.toList ≠ []) (b : String) : Closes (a ++ b) := by
  obtain ⟨d, hd⟩ := Option.ne_none_iff_exists'.mp (mt List.head?_eq_none_iff.mp hne)
  intro c hc
  rw [String.toList_append, List.head?_append, hd, Option.some_or] at hc
  exact ha c (hd.trans hc)

/-- **Texts side by side** have the targets of each. -/
theorem targets_append (h : Opens a ∨ Closes b) : targets (a ++ b) = targets a ++ targets b := by
  simp only [targets, String.toList_append]
  rcases h with h | h
  · rcases List.eq_nil_or_concat a.toList with ha | ⟨xs, c, ha⟩
    · rw [ha, List.nil_append]
      rfl
    · rw [List.concat_eq_append] at ha
      have hc : isPathChar c = false := h c (by simp [ha])
      rw [ha, List.append_assoc, List.singleton_append, targetsOf_append_cons hc,
        targetsOf_append_cons hc]
      exact congrArg (· ++ _) (List.append_nil _).symm
  · cases hb : b.toList with
    | nil => rw [List.append_nil]; exact (List.append_nil _).symm
    | cons c ys =>
        have hc : isPathChar c = false := h c (by simp [hb])
        rw [targetsOf_append_cons hc, targetsOf_cons hc]

/-- A text between two others from which no path reaches into it. -/
theorem targets_enclosed (hfront : Opens front) (hback : Closes back) :
    targets (front ++ text ++ back) = targets front ++ targets text ++ targets back := by
  rw [targets_append (.inr hback), targets_append (.inl hfront)]

/-- **Separators** have no targets, and no path reaches over them. -/
structure Separator (sep : String) : Prop where
  opens : Opens sep
  closes : Closes sep
  ne_nil : sep.toList ≠ []
  targets_eq : targets sep = []

namespace Separator

variable {sep : String}

/-- A separator behind a text adds no targets. -/
theorem targets_append (h : Separator sep) (a : String) : targets (a ++ sep) = targets a := by
  rw [Reference.targets_append (.inr h.closes), h.targets_eq, List.append_nil]

/-- A separator in front of a text adds no targets. -/
theorem append_targets (h : Separator sep) (b : String) : targets (sep ++ b) = targets b := by
  rw [Reference.targets_append (.inl h.opens), h.targets_eq, List.nil_append]

end Separator

/-- Texts between separators have the targets of each. -/
theorem targets_intercalate {sep : String} (h : Separator sep) (texts : List String) :
    targets (sep.intercalate texts) = texts.flatMap targets := by
  induction texts with
  | nil => rfl
  | cons text texts ih =>
      cases texts with
      | nil => simp
      | cons text' texts =>
          rw [String.intercalate_cons_cons, targets_append (.inl (h.opens.append h.ne_nil text)),
            h.targets_append, ih]
          rfl

/-! ### Texts without targets -/

/-- A list falls into one part more than it has separators. -/
theorem length_splitOnP (p : Char → Bool) (xs : List Char) :
    (xs.splitOnP p).length = xs.countP p + 1 := by
  induction xs with
  | nil => simp
  | cons x xs ih =>
      rw [List.splitOnP_cons_eq_if_modifyHead]
      split
      · next hx => rw [List.length_cons, ih, List.countP_cons_of_pos hx]
      · next hx => rw [List.length_modifyHead, ih, List.countP_cons_of_neg hx]

/-- Each part of a list is a sublist of it. -/
theorem sublist_of_mem_splitOnP {p : Char → Bool} {path : List Char}
    (h : path ∈ xs.splitOnP p) : path.Sublist xs := by
  induction xs generalizing path with
  | nil => simp_all
  | cons x xs ih =>
      rw [List.splitOnP_cons_eq_if_modifyHead] at h
      split at h
      · rcases List.mem_cons.mp h with rfl | h
        · exact List.nil_sublist _
        · exact (ih h).cons x
      · cases hsplit : xs.splitOnP p with
        | nil => exact absurd hsplit (List.splitOnP_ne_nil p xs)
        | cons first rest =>
            rw [hsplit, List.modifyHead_cons] at h
            rcases List.mem_cons.mp h with rfl | h
            · exact (ih (by simp [hsplit])).cons_cons x
            · exact (ih (by simp [hsplit, h])).cons x

/-- Each target takes two points. -/
theorem targets_eq_nil_of_count (h : text.toList.count '.' ≤ 1) : targets text = [] := by
  refine List.filterMap_eq_nil_iff.mpr fun path hpath => ?_
  have hcount : path.count '.' ≤ 1 :=
    ((sublist_of_mem_splitOnP hpath).count_le '.').trans h
  have hlength : ((path.splitOn '.').map String.ofList).length ≤ 2 := by
    rw [List.length_map, List.splitOn, length_splitOnP]
    exact Nat.succ_le_succ hcount
  unfold Target.ofPath?
  split
  · next heq => simp [heq] at hlength
  · next heq => simp [heq] at hlength
  · next heq => simp [heq] at hlength
  · rfl

/-- A text without points names nothing, as each form of a path has a point. -/
theorem targets_eq_nil_of_notMem (h : '.' ∉ text.toList) : targets text = [] :=
  targets_eq_nil_of_count (by rw [List.count_eq_zero.mpr h]; exact Nat.zero_le 1)

/-! ### Conditions -/

/-- An opening parenthesis opens paths. -/
theorem opens_paren : Opens "(" := by decide

/-- A closing parenthesis closes paths. -/
theorem closes_paren : Closes ")" := by decide

/-- Two texts between parentheses, with an operator between them. -/
theorem targets_binary (sep : String) (hsep : Separator (")" ++ sep ++ "(")) :
    targets ("(" ++ a ++ ")" ++ sep ++ "(" ++ b ++ ")") = targets a ++ targets b := by
  have htext : "(" ++ a ++ ")" ++ sep ++ "(" ++ b ++ ")" =
      "(" ++ (")" ++ sep ++ "(").intercalate [a, b] ++ ")" := by
    simp only [String.intercalate_cons_cons, String.intercalate_singleton, String.append_assoc]
  have hparens : targets "(" = [] ∧ targets ")" = [] := by decide +kernel
  rw [htext, targets_enclosed opens_paren closes_paren, targets_intercalate hsep, hparens.1,
    hparens.2]
  simp

/-- The conjunction with its parentheses is a separator. -/
theorem separator_and : Separator (")" ++ " && " ++ "(") :=
  ⟨by decide, by decide, by decide, by decide +kernel⟩

/-- The disjunction with its parentheses is a separator. -/
theorem separator_or : Separator (")" ++ " || " ++ "(") :=
  ⟨by decide, by decide, by decide, by decide +kernel⟩

/-- The text of a conjunction, with the separator taken together. -/
theorem render_and (l r : Condition) :
    (Condition.and l r).render = "(" ++ l.render ++ ")" ++ " && " ++ "(" ++ r.render ++ ")" := by
  have hoperator : ") && (" = ")" ++ " && " ++ "(" := rfl
  rw [Condition.render, hoperator]
  simp only [String.append_assoc]

/-- A conjunction names what its operands name. -/
theorem targets_and (l r : Condition) :
    targets (Condition.and l r).render = targets l.render ++ targets r.render := by
  rw [render_and, targets_binary _ separator_and]

/-- A disjunction names what its operands name. -/
theorem targets_or (l r : Condition) :
    targets (Condition.or l r).render = targets l.render ++ targets r.render := by
  have htext : (Condition.or l r).render =
      "(" ++ l.render ++ ")" ++ " || " ++ "(" ++ r.render ++ ")" := by
    have hoperator : ") || (" = ")" ++ " || " ++ "(" := rfl
    rw [Condition.render, hoperator]
    simp only [String.append_assoc]
  rw [htext, targets_binary _ separator_or]

/-- The conjunction of several conditions has the targets of each. -/
theorem targets_conjunction {cs : List Condition} {c : Condition}
    (hc : Condition.conjunction cs = some c) :
    targets c.render = cs.flatMap fun c => targets c.render := by
  cases cs with
  | nil => cases hc
  | cons first rest =>
      obtain rfl := Option.some.inj hc
      clear hc
      induction rest generalizing first with
      | nil => simp
      | cons next rest ih =>
          rw [List.foldl_cons, ih, List.flatMap_cons, targets_and, List.flatMap_cons,
            List.flatMap_cons, List.append_assoc]

/-- A disjunction on one line has the targets of its terms. -/
theorem targets_disjunction {terms : List Condition}
    (h : ∀ term ∈ terms, term.description = none) :
    targets (Condition.disjunction terms false).render =
      terms.flatMap fun term => targets term.render := by
  have hsep : Separator (Condition.termSeparator false) :=
    ⟨by decide, by decide, by decide, by decide +kernel⟩
  rw [Condition.render_disjunction false h, targets_intercalate hsep, List.flatMap_map]

/-! ### Grounded texts -/

/-- **Grounded texts.** All that a text names resolves, or all of it does that is named around
one stretch that is supplied, and no path reaches over the ends of that stretch. -/
inductive Grounded (supplied : String → Prop) (resolves : Target → Prop) (text : String) : Prop
  | own (hresolves : ∀ t ∈ targets text, resolves t)
  | around {front inner back : String} (htext : text = front ++ inner ++ back)
      (hinner : supplied inner)
      (htargets : targets text = targets front ++ targets inner ++ targets back)
      (hresolves : ∀ t ∈ targets front ++ targets back, resolves t)

namespace Grounded

variable {supplied supplied' : String → Prop} {resolves resolves' : Target → Prop}

/-- A text that names nothing is grounded. -/
theorem of_eq_nil (h : targets text = []) : Grounded supplied resolves text :=
  .own (by simp [h])

/-- A text with one point at most is grounded. -/
theorem of_count (h : text.toList.count '.' ≤ 1) : Grounded supplied resolves text :=
  .of_eq_nil (targets_eq_nil_of_count h)

/-- A text that is supplied as a whole. -/
theorem whole (h : supplied text) : Grounded supplied resolves text := by
  have htargets : targets "" = [] := by decide +kernel
  have htext : text = "" ++ text ++ "" := by simp
  refine .around htext h ?_ ?_ <;> simp [htargets]

/-- A grounded text stays so if more is supplied and more resolves. -/
theorem mono (h : Grounded supplied resolves text)
    (hsupplied : ∀ text, supplied text → supplied' text)
    (hresolves : ∀ t, resolves t → resolves' t) : Grounded supplied' resolves' text := by
  cases h with
  | own hown => exact .own fun t ht => hresolves t (hown t ht)
  | around htext hinner htargets hown =>
      exact .around htext (hsupplied _ hinner) htargets fun t ht => hresolves t (hown t ht)

/-- More text around a grounded one. -/
theorem enclose (h : Grounded supplied resolves text) (hfront : Opens front) (hback : Closes back)
    (hresolves : ∀ t ∈ targets front ++ targets back, resolves t) :
    Grounded supplied resolves (front ++ text ++ back) := by
  rw [List.forall_mem_append] at hresolves
  cases h with
  | own hown =>
      refine .own fun t ht => ?_
      rw [targets_enclosed hfront hback, List.mem_append, List.mem_append] at ht
      rcases ht with (ht | ht) | ht
      · exact hresolves.1 t ht
      · exact hown t ht
      · exact hresolves.2 t ht
  | @around f inner b htext hinner htargets hown =>
      rw [List.forall_mem_append] at hown
      have hf : targets (front ++ f) = targets front ++ targets f := targets_append (.inl hfront)
      have hb : targets (b ++ back) = targets b ++ targets back := targets_append (.inr hback)
      have htext' : front ++ text ++ back = (front ++ f) ++ inner ++ (b ++ back) := by
        simp only [htext, String.append_assoc]
      refine .around htext' hinner ?_ ?_
      · rw [targets_enclosed hfront hback, htargets, hf, hb]
        simp only [List.append_assoc]
      · simp only [hf, hb, List.forall_mem_append]
        exact ⟨⟨hresolves.1, hown.1⟩, hown.2, hresolves.2⟩

/-- A supplied text between texts that name nothing. -/
theorem between {inner : String} (hinner : supplied inner) (hfront : Opens front)
    (hback : Closes back) (hf : targets front = []) (hb : targets back = []) :
    Grounded supplied resolves (front ++ inner ++ back) :=
  (whole hinner).enclose hfront hback (by simp [hf, hb])

variable {l r : Condition}

/-- A conjunction is grounded if the left operand is and all that the right one names resolves. -/
theorem and_left (hl : Grounded supplied resolves l.render)
    (hr : ∀ t ∈ targets r.render, resolves t) :
    Grounded supplied resolves (Condition.and l r).render := by
  have hopen : targets "(" = [] := by decide +kernel
  have hoperator : targets (")" ++ " && " ++ "(") = [] := separator_and.targets_eq
  have hback : targets (")" ++ " && " ++ "(" ++ r.render ++ ")") = targets r.render := by
    have hclose : targets ")" = [] := by decide +kernel
    rw [targets_enclosed separator_and.opens closes_paren, hoperator, hclose, List.nil_append,
      List.append_nil]
  have hcloses : Closes (")" ++ " && " ++ "(" ++ r.render ++ ")") := by
    simp only [String.append_assoc]
    exact closes_paren.append (by decide) _
  have h := hl.enclose opens_paren hcloses (by rwa [hopen, hback])
  simpa only [render_and, String.append_assoc] using h

/-- A conjunction is grounded if the right operand is and all that the left one names resolves. -/
theorem and_right (hl : ∀ t ∈ targets l.render, resolves t)
    (hr : Grounded supplied resolves r.render) :
    Grounded supplied resolves (Condition.and l r).render := by
  have hclose : targets ")" = [] := by decide +kernel
  have hfront : targets ("(" ++ l.render ++ (")" ++ " && " ++ "(")) = targets l.render := by
    have hopen : targets "(" = [] := by decide +kernel
    rw [targets_enclosed opens_paren separator_and.closes, separator_and.targets_eq, hopen,
      List.nil_append, List.append_nil]
  have hopens : Opens ("(" ++ l.render ++ (")" ++ " && " ++ "(")) :=
    separator_and.opens.append separator_and.ne_nil _
  have h := hr.enclose hopens closes_paren (by rwa [hclose, hfront, List.append_nil])
  simpa only [render_and, String.append_assoc] using h

end Grounded

end AgentPipeline.Reference
