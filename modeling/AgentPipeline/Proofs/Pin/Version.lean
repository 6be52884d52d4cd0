import AgentPipeline.Pin.Version
import Mathlib.Data.Set.Defs
import Mathlib.Tactic.ByContra

/-!
# The order of versions

Numeric versions are compared by their numbers, lexicographically
(`isLE_compare_iff`). All other pairs are compared by their text. Each of the two comparisons is an
order, but they contradict each other: `v9` comes in front of `v10` by number and behind it by text.
This does no harm as long as the third versions around agree. A version that is not numeric and
stands between two numeric ones by text **tangles** them if these stand the other way round by
number (`Tangled`).

Whether the comparison is an order of some versions (`ConsistentOn`) depends on this alone: it is
one exactly if no three of them are tangled (`Version.consistentOn_iff`). So numeric versions have an
order (`Version.consistentOn_of_isNumeric`), but not all versions do (`Version.compare_tangled`).
-/

namespace AgentPipeline

/-! ### Consistent comparisons -/

/-- A comparison is **consistent** on a set if it is an order there: turning a pair around turns the
comparison around, `<` is transitive, and equal members compare alike with every third one. -/
structure ConsistentOn {α : Type} (cmp : α → α → Ordering) (s : Set α) : Prop where
  swap : ∀ a ∈ s, ∀ b ∈ s, cmp b a = (cmp a b).swap
  trans : ∀ a ∈ s, ∀ b ∈ s, ∀ c ∈ s, cmp a b = .lt → cmp b c = .lt → cmp a c = .lt
  congr : ∀ a ∈ s, ∀ b ∈ s, ∀ c ∈ s, cmp a b = .eq → cmp a c = cmp b c

/-- Where a comparison is consistent, so is the order that admits equal members. -/
theorem ConsistentOn.isLE_trans {α : Type} {cmp : α → α → Ordering} {s : Set α} {a b c : α}
    (h : ConsistentOn cmp s) (ha : a ∈ s) (hb : b ∈ s) (hc : c ∈ s)
    (hab : (cmp a b).isLE) (hbc : (cmp b c).isLE) : (cmp a c).isLE := by
  cases hab' : cmp a b with
  | lt =>
      cases hbc' : cmp b c with
      | lt => rw [h.trans a ha b hb c hc hab' hbc']; rfl
      | eq =>
          have hcb : cmp c b = .eq := by rw [h.swap b hb c hc, hbc']; rfl
          rw [h.swap c hc a ha, h.congr c hc b hb a ha hcb, ← h.swap b hb a ha, hab']
          rfl
      | gt => simp [hbc'] at hbc
  | eq => rwa [h.congr a ha b hb c hc hab']
  | gt => simp [hab'] at hab

namespace Version

variable {a b c p q x : String} {s : Set String}

/-! ### Two orders -/

/-- Numbers are compared part by part. -/
theorem Numbers.compare_eq_compareLex : Numbers.compare =
    compareLex (compareOn (·.major)) (compareLex (compareOn (·.minor)) (compareOn (·.patch))) :=
  rfl

instance : Std.TransCmp Numbers.compare := Numbers.compare_eq_compareLex ▸ inferInstance

/-- **Numeric versions** have numbers. -/
def IsNumeric (v : String) : Prop := (parse? v).isSome

instance : DecidablePred IsNumeric := fun v => inferInstanceAs (Decidable (parse? v).isSome)

/-- The numbers of a numeric version; zeros for another one. -/
def numbers (v : String) : Numbers := (parse? v).getD ⟨0, 0, 0⟩

/-- A numeric version has its numbers. -/
theorem parse?_eq_numbers (ha : IsNumeric a) : parse? a = some (numbers a) := by
  obtain ⟨m, hm⟩ := Option.isSome_iff_exists.mp ha
  rw [numbers, hm, Option.getD_some]

/-- Numeric versions are compared by their numbers. -/
theorem compare_of_isNumeric (ha : IsNumeric a) (hb : IsNumeric b) :
    compare a b = (numbers a).compare (numbers b) := by
  rw [compare, parse?_eq_numbers ha, parse?_eq_numbers hb]

/-- The lexicographic order of numbers. -/
def Numbers.AtMost (m n : Numbers) : Prop :=
  m.major < n.major ∨ m.major = n.major ∧
    (m.minor < n.minor ∨ m.minor = n.minor ∧ m.patch ≤ n.patch)

instance (m n : Numbers) : Decidable (m.AtMost n) := by
  unfold Numbers.AtMost
  infer_instance

/-- Numeric versions are compared lexicographically. -/
theorem isLE_compare_iff (ha : IsNumeric a) (hb : IsNumeric b) :
    (compare a b).isLE ↔ (numbers a).AtMost (numbers b) := by
  rw [compare_of_isNumeric ha hb, Numbers.compare, Ordering.isLE_then_iff_or,
    Ordering.isLE_then_iff_or, Nat.compare_eq_lt, Nat.compare_eq_eq, Nat.compare_eq_lt,
    Nat.compare_eq_eq, Nat.isLE_compare, Numbers.AtMost]

/-- Numeric versions with the same first number. -/
def SameMajor (a b : String) : Prop :=
  IsNumeric a ∧ IsNumeric b ∧ (numbers a).major = (numbers b).major

instance (a b : String) : Decidable (SameMajor a b) := by
  unfold SameMajor
  infer_instance

/-- Two versions have the same first number or the same text in its place. -/
theorem sameMajor_iff : sameMajor a b = true ↔ SameMajor a b := by
  unfold sameMajor
  split
  · next m n ha hb => simp [SameMajor, IsNumeric, numbers, ha, hb]
  · next hnone =>
    refine iff_of_false Bool.false_ne_true fun ⟨ha, hb, _⟩ => ?_
    exact hnone _ _ (parse?_eq_numbers ha) (parse?_eq_numbers hb)

/-- Unless both versions are numeric, they are compared by their text. -/
theorem compare_of_not_isNumeric (h : ¬(IsNumeric a ∧ IsNumeric b)) :
    compare a b = Ord.compare a b := by
  unfold compare
  split
  · next ha hb => exact absurd ⟨by simp [IsNumeric, ha], by simp [IsNumeric, hb]⟩ h
  · rfl

/-- Versions that are not both numeric are compared by their text. -/
theorem compare_eq_lt_iff (h : ¬(IsNumeric a ∧ IsNumeric b)) : compare a b = .lt ↔ a < b := by
  rw [compare_of_not_isNumeric h]
  exact compareOfLessAndEq_eq_lt

/-- Such versions are only equal if their texts are. -/
theorem eq_of_compare_eq (h : ¬(IsNumeric a ∧ IsNumeric b)) (heq : compare a b = .eq) : a = b := by
  rw [compare_of_not_isNumeric h] at heq
  exact Std.LawfulEqCmp.compare_eq_iff_eq.mp heq

/-- Turning a pair of versions around turns their comparison around. -/
theorem compare_swap (a b : String) : compare b a = (compare a b).swap := by
  by_cases h : IsNumeric a ∧ IsNumeric b
  · rw [compare_of_isNumeric h.1 h.2, compare_of_isNumeric h.2 h.1]
    exact Std.OrientedCmp.eq_swap
  · rw [compare_of_not_isNumeric h, compare_of_not_isNumeric (mt And.symm h)]
    exact Std.OrientedCmp.eq_swap

/-- A version is equal to itself. -/
theorem compare_self (a : String) : compare a a = .eq := by
  have hswap := compare_swap a a
  cases haa : compare a a with
  | lt => simp [haa] at hswap
  | eq => rfl
  | gt => simp [haa] at hswap

/-- Of two versions one is not behind the other. -/
theorem isLE_of_not_lt (h : compare a b ≠ .lt) : (compare b a).isLE := by
  rw [compare_swap]
  cases hab : compare a b with
  | lt => exact absurd hab h
  | eq => rfl
  | gt => rfl

/-! ### Consistency -/

/-- **Tangled versions**: by number `p` does not come behind `q`, but by text it does, with `x` in
between, which is not numeric. -/
structure Tangled (p x q : String) : Prop where
  left : IsNumeric p
  middle : ¬IsNumeric x
  right : IsNumeric q
  isLE : (compare p q).isLE
  lt_middle : q < x
  middle_lt : x < p

section

variable (hp : IsNumeric p) (hx : ¬IsNumeric x) (hq : IsNumeric q) (hpq : (compare p q).isLE)
  (h : ¬Tangled p x q)

include hp hx hq hpq h

/-- What comes behind the higher one of two numeric versions comes behind the lower one. -/
theorem lt_of_isLE_of_lt (hqx : compare q x = .lt) : compare p x = .lt := by
  rw [compare_eq_lt_iff fun h => hx h.2] at hqx ⊢
  by_contra hlt
  refine h ⟨hp, hx, hq, hpq, hqx, ?_⟩
  by_contra hlt'
  obtain rfl := String.le_antisymm (String.not_lt.mp hlt) (String.not_lt.mp hlt')
  exact hx hp

/-- What comes in front of the lower one of two numeric versions comes in front of the higher
one. -/
theorem lt_of_lt_of_isLE (hxp : compare x p = .lt) : compare x q = .lt := by
  rw [compare_eq_lt_iff fun h => hx h.1] at hxp ⊢
  by_contra hlt
  refine h ⟨hp, hx, hq, hpq, ?_, hxp⟩
  by_contra hlt'
  obtain rfl := String.le_antisymm (String.not_lt.mp hlt) (String.not_lt.mp hlt')
  exact hx hq

end

/-- Tangled versions contradict a consistent comparison. -/
theorem not_tangled_of_consistentOn (h : ConsistentOn compare s) (hp : p ∈ s) (hx : x ∈ s)
    (hq : q ∈ s) : ¬Tangled p x q := by
  intro ht
  have hqx : compare q x = .lt := (compare_eq_lt_iff fun h => ht.middle h.2).mpr ht.lt_middle
  have hxp : compare x p = .lt := (compare_eq_lt_iff fun h => ht.middle h.1).mpr ht.middle_lt
  have hqp : compare q p = .lt := h.trans q hq x hx p hp hqx hxp
  have hle := ht.isLE
  rw [compare_swap, hqp] at hle
  cases hle

section

variable (h : ∀ p ∈ s, ∀ x ∈ s, ∀ q ∈ s, ¬Tangled p x q) (ha : a ∈ s) (hb : b ∈ s) (hc : c ∈ s)

include h ha hb hc

/-- Without tangled versions `<` is transitive. -/
theorem lt_trans_of_not_tangled (hab : compare a b = .lt) (hbc : compare b c = .lt) :
    compare a c = .lt := by
  by_cases hb' : IsNumeric b
  · by_cases ha' : IsNumeric a
    · by_cases hc' : IsNumeric c
      · rw [compare_of_isNumeric ha' hb'] at hab
        rw [compare_of_isNumeric hb' hc'] at hbc
        rw [compare_of_isNumeric ha' hc']
        exact Std.TransCmp.lt_trans hab hbc
      · have hle : (compare a b).isLE := by rw [hab]; rfl
        exact lt_of_isLE_of_lt ha' hc' hb' hle (h a ha c hc b hb) hbc
    · by_cases hc' : IsNumeric c
      · have hle : (compare b c).isLE := by rw [hbc]; rfl
        exact lt_of_lt_of_isLE hb' ha' hc' hle (h b hb a ha c hc) hab
      · rw [compare_eq_lt_iff fun h => ha' h.1] at hab ⊢
        rw [compare_eq_lt_iff fun h => hc' h.2] at hbc
        exact String.lt_trans hab hbc
  · have hab' : a < b := (compare_eq_lt_iff fun h => hb' h.2).mp hab
    have hbc' : b < c := (compare_eq_lt_iff fun h => hb' h.1).mp hbc
    by_cases hac : IsNumeric a ∧ IsNumeric c
    · by_contra hlt
      exact h c hc b hb a ha ⟨hac.2, hb', hac.1, isLE_of_not_lt hlt, hab', hbc'⟩
    · exact (compare_eq_lt_iff hac).mpr (String.lt_trans hab' hbc')

/-- Without tangled versions equal ones compare alike with every third one. -/
theorem compare_congr_of_not_tangled (hab : compare a b = .eq) : compare a c = compare b c := by
  by_cases hn : IsNumeric a ∧ IsNumeric b
  · by_cases hc' : IsNumeric c
    · rw [compare_of_isNumeric hn.1 hn.2] at hab
      rw [compare_of_isNumeric hn.1 hc', compare_of_isNumeric hn.2 hc']
      exact Std.TransCmp.congr_left hab
    · have hle : (compare a b).isLE := by rw [hab]; rfl
      have hle' : (compare b a).isLE := by rw [compare_swap, hab]; rfl
      cases hac : compare a c with
      | lt => exact (lt_of_isLE_of_lt hn.2 hc' hn.1 hle' (h b hb c hc a ha) hac).symm
      | eq => exact absurd (eq_of_compare_eq (fun h => hc' h.2) hac ▸ hn.1) hc'
      | gt =>
          have hca : compare c a = .lt := by rw [compare_swap, hac]; rfl
          have hcb := lt_of_lt_of_isLE hn.1 hc' hn.2 hle (h a ha c hc b hb) hca
          rw [compare_swap, hcb]
          rfl
  · rw [eq_of_compare_eq hn hab]

end

/-- **Where versions have an order**: the comparison is consistent on a set of versions exactly if
no three of them are tangled. -/
theorem consistentOn_iff :
    ConsistentOn compare s ↔ ∀ p ∈ s, ∀ x ∈ s, ∀ q ∈ s, ¬Tangled p x q := by
  refine ⟨fun h p hp x hx q hq => not_tangled_of_consistentOn h hp hx hq, fun h => ⟨?_, ?_, ?_⟩⟩
  · exact fun a _ b _ => compare_swap a b
  · exact fun a ha b hb c hc => lt_trans_of_not_tangled h ha hb hc
  · exact fun a ha b hb c hc => compare_congr_of_not_tangled h ha hb hc

/-- Numeric versions have an order. -/
theorem consistentOn_of_isNumeric (h : ∀ v ∈ s, IsNumeric v) : ConsistentOn compare s :=
  consistentOn_iff.mpr fun _ _ x hx _ _ ht => ht.middle (h x hx)

end Version

end AgentPipeline
