import AgentPipeline.Condition.Reference
import AgentPipeline.Condition.Tree
import Mathlib.Data.List.TakeWhile

/-!
# References of composed texts

A reference is one run of letters, digits, underscores, dashes and points. So no reference
reaches over any other character, a **separator**, and what stands in front of a separator
and behind it can be scanned apart (`namesFrom_append_separator`).

The operators put each operand between parentheses, which are separators. A condition
refers to what its operands refer to and to nothing else, whatever they are, and so does
the conjunction of several conditions (`mem_needsReferences_conjunction`).
-/

namespace AgentPipeline.Reference

/-! ### Single references -/

/-- What every reference starts with. -/
def keyword : List Char := ['n', 'e', 'e', 'd', 's', '.']

/-- The names that a reference may have. -/
def IsName (name : List Char) : Prop :=
  ∃ c cs, name = c :: cs ∧ isNameStart c = true ∧ ∀ x ∈ cs, isNameChar x = true

/-- A reference is a keyword, a name and a point. -/
theorem nameAt_eq_some_iff {cs name : List Char} :
    nameAt cs = some name ↔
      IsName name ∧ ∃ rest, cs = keyword ++ name ++ '.' :: rest := by
  constructor
  · intro h
    unfold nameAt at h
    split at h
    · next c cs =>
      split at h
      · next hname =>
        obtain rfl := Option.some.inj h
        obtain ⟨hstart, hpoint⟩ := hname
        obtain ⟨rest, hrest⟩ := List.head?_eq_some_iff.mp hpoint
        refine ⟨⟨c, _, rfl, hstart, fun x hx => List.mem_takeWhile_imp hx⟩, rest, ?_⟩
        rw [← hrest]
        simp [keyword]
      · cases h
    · cases h
  · rintro ⟨⟨c, cs, rfl, hstart, hchars⟩, rest, rfl⟩
    have hpoint : isNameChar '.' = false := by decide
    simp [nameAt, keyword, hstart, List.takeWhile_append_of_pos hchars,
      List.dropWhile_append_of_pos hchars, hpoint]

/-- A character that no reference reaches over, and behind which one may start. -/
structure Separates (c : Char) : Prop where
  not_nameChar : isNameChar c = false
  ne_point : c ≠ '.'
  atBoundary : atBoundary (some c) = true

instance (c : Char) : Decidable (Separates c) :=
  decidable_of_iff (isNameChar c = false ∧ c ≠ '.' ∧ atBoundary (some c) = true)
    ⟨fun ⟨h₁, h₂, h₃⟩ => ⟨h₁, h₂, h₃⟩, fun ⟨h₁, h₂, h₃⟩ => ⟨h₁, h₂, h₃⟩⟩

variable {c : Char} {cs xs ys name : List Char}

/-- What starts a name may stand in it. -/
theorem isNameChar_of_isNameStart (h : isNameStart c = true) : isNameChar c = true := by
  simp only [isNameStart, isNameChar, Char.isAlphanum, Bool.or_eq_true] at h ⊢
  rcases h with h | h <;> simp [h]

/-- No separator is in a reference. -/
theorem Separates.notMem (hc : Separates c) (hname : IsName name) :
    c ∉ keyword ++ name ++ ['.'] := by
  obtain ⟨d, ds, rfl, hstart, hchars⟩ := hname
  have hkeyword : ∀ x ∈ keyword, isNameChar x = true ∨ x = '.' := by simp [keyword, isNameChar]
  intro hmem
  have hx : isNameChar c = true ∨ c = '.' := by
    rcases List.mem_append.mp hmem with hmem | hmem
    · rcases List.mem_append.mp hmem with hmem | hmem
      · exact hkeyword c hmem
      · rcases List.mem_cons.mp hmem with rfl | hmem
        · exact .inl (isNameChar_of_isNameStart hstart)
        · exact .inl (hchars c hmem)
    · exact .inr (List.mem_singleton.mp hmem)
  rcases hx with hx | rfl
  · exact absurd hx (by simp [hc.not_nameChar])
  · exact hc.ne_point rfl

/-- Whether a reference starts a text is decided in front of the first separator. -/
theorem nameAt_append_cons (hc : Separates c) : nameAt (xs ++ c :: ys) = nameAt xs := by
  ext name
  simp only [nameAt_eq_some_iff]
  refine and_congr_right fun hname => ⟨?_, ?_⟩
  · rintro ⟨rest, hrest⟩
    have hsplit : xs ++ c :: ys = (keyword ++ name ++ ['.']) ++ rest := by
      rw [hrest, List.append_assoc _ ['.'], List.singleton_append]
    rcases List.append_eq_append_iff.mp hsplit with ⟨as, hxs, has⟩ | ⟨bs, hxs, -⟩
    · cases as with
      | nil => exact ⟨[], by simpa using hxs.symm⟩
      | cons a as =>
          obtain ⟨rfl, -⟩ := List.cons.inj has
          exact absurd (hxs ▸ by simp) (hc.notMem hname)
    · exact ⟨bs, by simpa using hxs⟩
  · rintro ⟨rest, rfl⟩
    exact ⟨rest ++ c :: ys, by simp⟩

/-! ### Scanning a text -/

/-- **Separators.** The text in front of a separator and the one behind it are scanned
apart. -/
theorem namesFrom_append_cons (hc : Separates c) {skip : Nat} {previous : Option Char}
    (hskip : skip ≤ xs.length) :
    namesFrom skip previous (xs ++ c :: ys) =
      namesFrom skip previous xs ++ namesFrom 0 (some c) ys := by
  induction xs generalizing skip previous with
  | nil =>
      obtain rfl : skip = 0 := by simpa using hskip
      have hnone : nameAt ([] ++ c :: ys) = none := nameAt_append_cons hc
      rw [List.nil_append] at hnone ⊢
      simp [namesFrom, hnone]
  | cons x xs ih =>
      rw [List.cons_append]
      cases skip with
      | succ skip => exact ih (by simpa using hskip)
      | zero =>
          rw [namesFrom, namesFrom, ← List.cons_append, nameAt_append_cons hc]
          split
          · next name hname =>
            -- the keyword stands in front of the name and a point behind it, all within `xs`
            have hlength : name.length + 6 ≤ xs.length := by
              split at hname
              · obtain ⟨-, rest, hrest⟩ := nameAt_eq_some_iff.mp hname
                have hall : xs.length + 1 = 6 + name.length + (rest.length + 1) := by
                  simpa only [keyword, List.length_cons, List.length_append, List.length_nil]
                    using congrArg List.length hrest
                omega
              · cases hname
            rw [ih hlength, List.cons_append]
          · exact ih (Nat.zero_le _)

/-- A scan behind a separator is like one at the start of a text. -/
theorem namesFrom_of_separates (hc : Separates c) :
    namesFrom 0 (some c) cs = namesFrom 0 none cs := by
  cases cs with
  | nil => rfl
  | cons x cs => rw [namesFrom, namesFrom, hc.atBoundary]; rfl

/-- What stands in front of a separator and behind it is scanned apart. -/
theorem namesFrom_append_separator (hc : Separates c) :
    namesFrom 0 none (xs ++ c :: ys) = namesFrom 0 none xs ++ namesFrom 0 none ys := by
  rw [namesFrom_append_cons hc (Nat.zero_le _), namesFrom_of_separates hc]

/-- A separator at the front of a text adds no names. -/
theorem namesFrom_cons_separator (hc : Separates c) :
    namesFrom 0 none (c :: ys) = namesFrom 0 none ys := by
  rw [← List.nil_append (c :: ys), namesFrom_append_separator hc]
  rfl

/-- The jobs that a text refers to are the names that the scan finds. -/
theorem mem_needsReferences {text name : String} :
    name ∈ (needsReferences text).toList ↔ name.toList ∈ namesFrom 0 none text.toList := by
  rw [needsReferences, NameSet.mem_toList_ofList, List.mem_map]
  constructor
  · rintro ⟨cs, hcs, rfl⟩
    rwa [String.toList_ofList]
  · intro h
    exact ⟨_, h, String.ofList_toList⟩

/-! ### Conditions -/

/-- No reference reaches over an opening parenthesis. -/
theorem separates_open : Separates '(' := by decide

/-- No reference reaches over a closing parenthesis. -/
theorem separates_close : Separates ')' := by decide

/-- No reference reaches over a space. -/
theorem separates_space : Separates ' ' := by decide

/-- No reference reaches over an ampersand. -/
theorem separates_ampersand : Separates '&' := by decide

/-- No reference reaches over a bar. -/
theorem separates_bar : Separates '|' := by decide

/-- No reference reaches over an exclamation mark. -/
theorem separates_bang : Separates '!' := by decide

/-- What stands in parentheses is scanned apart from what stands behind them. -/
theorem namesFrom_paren (cs ys : List Char) :
    namesFrom 0 none ('(' :: cs ++ ')' :: ys) =
      namesFrom 0 none cs ++ namesFrom 0 none ys := by
  rw [namesFrom_append_separator separates_close, namesFrom_cons_separator separates_open]

/-- Separators in front of a text do not matter. -/
theorem namesFrom_separators (hxs : ∀ c ∈ xs, Separates c) :
    namesFrom 0 none (xs ++ ys) = namesFrom 0 none ys := by
  induction xs with
  | nil => rfl
  | cons c xs ih =>
      rw [List.forall_mem_cons] at hxs
      rw [List.cons_append, namesFrom_cons_separator hxs.1, ih hxs.2]

/-- Operands in parentheses are scanned apart, whatever the operator between them is. -/
theorem namesFrom_operands (operator : List Char) (hoperator : ∀ c ∈ operator, Separates c)
    (l r : List Char) :
    namesFrom 0 none ('(' :: l ++ ')' :: (operator ++ '(' :: r ++ [')'])) =
      namesFrom 0 none l ++ namesFrom 0 none r := by
  have hright : namesFrom 0 none (operator ++ '(' :: r ++ [')']) = namesFrom 0 none r := by
    rw [List.append_assoc, namesFrom_separators hoperator, namesFrom_paren]
    exact List.append_nil _
  rw [namesFrom_paren, hright]

/-- A conjunction refers to what its operands refer to, in their order. -/
theorem namesFrom_and (l r : Condition) :
    namesFrom 0 none (Condition.and l r).render.toList =
      namesFrom 0 none l.render.toList ++ namesFrom 0 none r.render.toList := by
  rw [← namesFrom_operands [' ', '&', '&', ' '] (by simp [separates_space, separates_ampersand])]
  simp [Condition.render]

/-- A disjunction refers to what its operands refer to, in their order. -/
theorem namesFrom_or (l r : Condition) :
    namesFrom 0 none (Condition.or l r).render.toList =
      namesFrom 0 none l.render.toList ++ namesFrom 0 none r.render.toList := by
  rw [← namesFrom_operands [' ', '|', '|', ' '] (by simp [separates_space, separates_bar])]
  simp [Condition.render]

/-- A negation refers to what its operand refers to. -/
theorem namesFrom_not (c : Condition) :
    namesFrom 0 none (Condition.not c).render.toList = namesFrom 0 none c.render.toList := by
  have htext : (Condition.not c).render.toList = ['!'] ++ ('(' :: c.render.toList ++ [')']) := by
    simp [Condition.render]
  rw [htext, namesFrom_separators (by simp [separates_bang]), namesFrom_paren]
  exact List.append_nil _

/-- A conjunction refers to what its operands refer to. -/
theorem mem_needsReferences_and {l r : Condition} {name : String} :
    name ∈ (needsReferences (Condition.and l r).render).toList ↔
      name ∈ (needsReferences l.render).toList ∨ name ∈ (needsReferences r.render).toList := by
  simp only [mem_needsReferences, namesFrom_and, List.mem_append]

/-- The conjunction of several conditions refers to what they refer to. -/
theorem mem_needsReferences_conjunction {cs : List Condition} {c : Condition} {name : String}
    (hc : Condition.conjunction cs = some c) :
    name ∈ (needsReferences c.render).toList ↔
      ∃ c' ∈ cs, name ∈ (needsReferences c'.render).toList := by
  cases cs with
  | nil => cases hc
  | cons first rest =>
      obtain rfl := Option.some.inj hc
      clear hc
      induction rest generalizing first with
      | nil => simp
      | cons next rest ih =>
          rw [List.foldl_cons, ih]
          simp [mem_needsReferences_and, or_assoc]

end AgentPipeline.Reference
