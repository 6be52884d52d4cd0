import AgentPipeline.Condition.Wrap
import AgentPipeline.Proofs.Text.Trim

/-!
# Characters of wrapped expressions

An expression is cut at white space, and its segments are joined by spaces again. So
whatever the limit and the grain, a line of a wrapped expression has no characters but
those of the expression and spaces (`breakLines_subset`).
-/

namespace AgentPipeline.Wrap

variable {grain : Grain} {depth : Int} {quotes : Quotes} {segment gap line : List Char}
  {segments : List (List Char)} {text : List Char}

/-- The segments consist of what was read before and of the rest. -/
theorem splitFrom_subset {cs : List Char} :
    (splitFrom grain depth quotes segment gap cs).flatten ⊆ segment ++ gap ++ cs := by
  have hfinished : ∀ segment : List Char, Text.trim segment.reverse ⊆ segment :=
    fun _ _ hx => List.mem_reverse.mp (Text.trim_subset _ hx)
  induction cs generalizing depth quotes segment gap with
  | nil =>
      rw [splitFrom, List.flatten_singleton, List.append_nil]
      exact List.subset_append_of_subset_left _ (hfinished _)
  | cons c cs ih =>
      unfold splitFrom
      split
      · exact fun x hx => by grind [ih hx]
      split
      · exact fun x hx => by grind [ih hx]
      dsimp only
      split
      · rw [List.flatten_cons, List.append_subset]
        exact ⟨fun x hx => by grind [hfinished _ hx], fun x hx => by grind [ih hx]⟩
      · exact fun x hx => by grind [ih hx]

/-- Cutting adds nothing. -/
theorem splitAtBreaks_subset : (splitAtBreaks grain text).flatten ⊆ text := fun x hx => by
  obtain ⟨segment, hsegment, hx⟩ := List.mem_flatten.mp hx
  exact splitFrom_subset (List.mem_flatten.mpr ⟨segment, List.mem_of_mem_filter hsegment, hx⟩)

/-- Packing puts spaces between the segments. -/
theorem packFrom_subset : (packFrom line segments).flatten ⊆ ' ' :: (line ++ segments.flatten) := by
  induction segments generalizing line with
  | nil =>
      unfold packFrom
      split
      · exact List.nil_subset _
      · rw [List.flatten_singleton]
        exact fun x hx => by simp [hx]
  | cons segment rest ih =>
      rw [List.flatten_cons]
      unfold packFrom
      split
      · exact fun x hx => by grind [ih hx]
      split
      · exact fun x hx => by grind [ih hx]
      · rw [List.flatten_cons, List.append_subset]
        exact ⟨fun x hx => by simp [hx], fun x hx => by grind [ih hx]⟩

/-- Packing adds spaces only. -/
theorem pack_subset : (pack (splitAtBreaks grain (Text.trim text))).flatten ⊆ ' ' :: text :=
  List.Subset.trans packFrom_subset
    (List.cons_subset_cons _ (List.Subset.trans splitAtBreaks_subset (Text.trim_subset text)))

/-- Cutting at parentheses adds spaces only. -/
theorem breakAtParens_subset : (breakAtParens text).flatten ⊆ ' ' :: text := by
  unfold breakAtParens
  dsimp only
  split
  · rw [List.flatten_singleton]
    exact List.subset_cons_of_subset _ (Text.trim_subset text)
  · exact pack_subset

/-- **Wrapping adds spaces** and no other characters. -/
theorem breakLines_subset : (breakLines text).flatten ⊆ ' ' :: text := by
  unfold breakLines
  dsimp only
  split
  · rw [List.flatten_singleton]
    exact List.subset_cons_of_subset _ (Text.trim_subset text)
  · intro x hx
    obtain ⟨broken, hbroken, hx⟩ := List.mem_flatten.mp hx
    obtain ⟨line, hline, hbroken⟩ := List.mem_flatMap.mp hbroken
    have hpacked : line ⊆ ' ' :: text := fun _ hy =>
      pack_subset (List.mem_flatten.mpr ⟨line, hline, hy⟩)
    split at hbroken
    · exact hpacked (List.mem_singleton.mp hbroken ▸ hx)
    · have hbroken := breakAtParens_subset (List.mem_flatten.mpr ⟨broken, hbroken, hx⟩)
      exact List.cons_subset.mpr ⟨List.mem_cons_self, hpacked⟩ hbroken

end AgentPipeline.Wrap
