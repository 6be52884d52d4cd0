import Mathlib.Logic.Basic

/-!
# Texts inside of texts

A text stands inside of another one if it is a stretch of it. A text that shares no character
with a separator stands inside of a separated list of texts exactly if it stands inside of one
of them (`infix_intercalate`).
-/

namespace AgentPipeline.Text

variable {x a b sep : List Char} {c : Char}

theorem prefix_append_cons (hc : c ∉ x) : x <+: a ++ c :: b ↔ x <+: a := by
  induction a generalizing x with
  | nil =>
      cases x with
      | nil => simp
      | cons d x => simp [List.cons_prefix_cons, List.ne_of_not_mem_cons hc |>.symm]
  | cons d a ih =>
      cases x with
      | nil => simp
      | cons e x =>
          rw [List.cons_append, List.cons_prefix_cons, List.cons_prefix_cons,
            ih (List.not_mem_of_not_mem_cons hc)]

theorem not_prefix_cons (hc : c ∉ x) (hx : x ≠ []) : ¬x <+: c :: b := by
  rw [← List.nil_append (c :: b), prefix_append_cons hc, List.prefix_nil]
  exact hx

theorem infix_append_cons (hc : c ∉ x) (hx : x ≠ []) :
    x <:+: a ++ c :: b ↔ x <:+: a ∨ x <:+: b := by
  induction a with
  | nil =>
      rw [List.nil_append, List.infix_cons_iff, or_iff_right (not_prefix_cons hc hx),
        List.infix_nil, or_iff_right hx]
  | cons d a ih =>
      rw [List.cons_append, List.infix_cons_iff, List.infix_cons_iff, ih, ← List.cons_append,
        prefix_append_cons hc, or_assoc]

/-- A separator between two texts. -/
theorem infix_append_append (hsep : ∀ c ∈ sep, c ∉ x) (hne : sep ≠ []) (hx : x ≠ []) :
    x <:+: a ++ (sep ++ b) ↔ x <:+: a ∨ x <:+: b := by
  induction sep generalizing a with
  | nil => exact absurd rfl hne
  | cons c sep ih =>
      rw [List.forall_mem_cons] at hsep
      rw [List.cons_append, infix_append_cons hsep.1 hx]
      cases sep with
      | nil => rw [List.nil_append]
      | cons d sep =>
          rw [← List.nil_append (d :: sep ++ b), ih hsep.2 (List.cons_ne_nil d sep), List.infix_nil,
            or_iff_right hx]

/-- A text inside of a separated list stands inside of one of the texts. -/
theorem infix_intercalate {sep : String} {texts : List String} (hsep : ∀ c ∈ sep.toList, c ∉ x)
    (hne : sep.toList ≠ []) (hx : x ≠ []) :
    x <:+: (sep.intercalate texts).toList ↔ ∃ text ∈ texts, x <:+: text.toList := by
  induction texts with
  | nil => simp [hx]
  | cons text texts ih =>
      cases texts with
      | nil => simp
      | cons text' texts =>
          rw [String.intercalate_cons_cons, String.toList_append, String.toList_append,
            List.append_assoc, infix_append_append hsep hne hx, ih]
          simp

end AgentPipeline.Text
