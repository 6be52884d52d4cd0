import AgentPipeline.Proofs.Condition.Reflow

/-!
# Where an expression is broken

A break point is described without the algorithm that looks for it (`IsBreakPoint`): a run of
white space outside of quotes, with an operator or an opening parenthesis in front of it or a
closing parenthesis behind it. The algorithm decides this at each run from the segment that it has
gathered so far, which starts behind the last break point and not at the start of the text. That
makes no difference: the characters in front of the run that count are in the segment, and no
quotes are open where it starts (`isBreak_iff`, `eq_of_append_eq`).

So a segment at the finer grain is unbreakable, and what is unbreakable is its only segment
(`splitAtBreaks_eq_singleton`). Packing joins segments only within the limit, hence a line beyond
the limit is one segment, which cannot be broken anywhere (`fits_or_unbreakable`).
-/

namespace AgentPipeline.Wrap

open Quotes (outside)
open Text (Blanks Trimmed)

variable {quotes : Quotes} {segment gap before text cs : List Char} {c next : Char}

/-! ### Break points -/

/-- **A break point**: white space outside of quotes, behind an operator or an opening parenthesis
or in front of a closing one. -/
structure IsBreakPoint (before gap : List Char) (next : Char) : Prop where
  closed : outside.after before = outside
  blanks : Blanks gap
  ne_nil : gap ≠ []
  /-- no white space stands in front of it -/
  exists_last : ∃ c ∈ before.getLast?, Text.isBlank c = false
  /-- no white space stands behind it -/
  solid_next : Text.isBlank next = false
  edge : ['|', '|'] <:+ before ∨ ['&', '&'] <:+ before ∨ ['('] <:+ before ∨ next = ')'

/-- There is no break point in a text. -/
def Unbreakable (text : List Char) : Prop :=
  ∀ before gap next rest, text = before ++ (gap ++ next :: rest) → ¬IsBreakPoint before gap next

/-- No white space stands in front of the gap of a break point. -/
theorem IsBreakPoint.last (h : IsBreakPoint before gap next) :
    ∀ c ∈ before.getLast?, Text.isBlank c = false := by
  obtain ⟨d, hd, hblank⟩ := h.exists_last
  intro c hc
  rwa [Option.some.inj (hc.symm.trans hd)]

/-- One more character may only be the one behind a break point. -/
theorem Unbreakable.concat (h : Unbreakable text)
    (hc : ∀ before gap, text = before ++ gap → ¬IsBreakPoint before gap c) :
    Unbreakable (text ++ [c]) := by
  intro before gap next rest heq
  rcases List.eq_nil_or_concat rest with rfl | ⟨rest, last, rfl⟩
  · rw [← List.append_assoc] at heq
    obtain ⟨rfl, hnext⟩ := List.append_inj' heq rfl
    obtain rfl := List.head_eq_of_cons_eq hnext
    exact hc before gap rfl
  · have hsplit : text ++ [c] = before ++ (gap ++ next :: rest) ++ [last] := by
      simpa using heq
    obtain ⟨rfl, -⟩ := List.append_inj' hsplit rfl
    exact h before gap next rest rfl

/-- No text cannot be broken. -/
theorem unbreakable_nil : Unbreakable [] := by
  intro before gap next rest heq
  simp at heq

/-- A single character cannot be broken. -/
theorem unbreakable_singleton (c : Char) : Unbreakable [c] := by
  refine unbreakable_nil.concat fun before gap heq h => h.ne_nil ?_
  exact (List.append_eq_nil_iff.mp heq.symm).2

/-- White space behind a text makes no break point. -/
theorem Unbreakable.append_blanks {back : List Char} (h : Unbreakable text) (hback : Blanks back) :
    Unbreakable (text ++ back) := by
  induction back generalizing text with
  | nil => rwa [List.append_nil]
  | cons c back ih =>
      rw [Text.blanks_cons] at hback
      have hc : Unbreakable (text ++ [c]) := h.concat fun _ _ _ hpoint => by
        exact Bool.false_ne_true (hpoint.solid_next.symm.trans hback.1)
      have happend := ih hc hback.2
      rwa [List.append_assoc] at happend

/-- A part of an unbreakable text, with white space around it, is unbreakable. -/
theorem Unbreakable.trim (h : Unbreakable text) : Unbreakable (Text.trim text) := by
  obtain ⟨front, back, htext, hfront, -⟩ := Text.exists_trim text
  intro before gap next rest heq hpoint
  have hsuffix : before <:+ front ++ before := List.suffix_append front before
  refine h (front ++ before) gap next (rest ++ back) ?_ ?_
  · rw [htext, heq]
    simp
  · obtain ⟨c, hc, hblank⟩ := hpoint.exists_last
    refine { hpoint with closed := ?_, exists_last := ⟨c, ?_, hblank⟩, edge := ?_ }
    · rw [Quotes.after_append, Quotes.after_blanks hfront, hpoint.closed]
    · rw [Option.mem_def, List.getLast?_append, Option.mem_def.mp hc, Option.some_or]
    · exact hpoint.edge.imp (·.trans hsuffix) (.imp (·.trans hsuffix) (.imp_left (·.trans hsuffix)))

/-! ### The segment that is gathered -/

/-- **What cutting keeps** besides: outside of quotes, a segment does not end with white space. -/
structure Gathers (quotes : Quotes) (segment gap : List Char) : Prop
    extends Follows quotes segment gap where
  solid : quotes = outside → ∀ c ∈ segment.head?, Text.isBlank c = false

namespace Gathers

/-- At the start nothing is gathered. -/
theorem nil : Gathers outside [] [] := ⟨follows_nil, nofun⟩

/-- A segment starts with a character that is not blank. -/
theorem start (hc : Text.isBlank c = false) : Gathers (outside.next c) [c] [] := by
  refine ⟨follows_start c, ?_⟩
  rintro - _ ⟨⟩
  exact hc

/-- Inside of quotes every character is gathered. -/
theorem inside (h : Gathers quotes segment gap) (hq : quotes ≠ outside) (c : Char) :
    Gathers (quotes.next c) (c :: segment) [] := by
  have hproper : quotes.Proper := h.quotes_eq ▸ Quotes.proper_outside.after _
  refine ⟨h.toFollows.inside c, ?_⟩
  rintro hnext _ ⟨⟩
  -- white space does not close the quotes
  exact Bool.eq_false_iff.mpr fun hblank =>
    hq (Quotes.outside_of_next_blank hproper hblank hnext)

/-- Outside of quotes white space is set aside. -/
theorem blank (h : Gathers outside segment gap) (hc : Text.isBlank c = true) :
    Gathers outside segment (c :: gap) := ⟨h.toFollows.blank hc, h.solid⟩

/-- Any other character is gathered behind the white space. -/
theorem kept (h : Gathers outside segment gap) (hc : Text.isBlank c = false) :
    Gathers (outside.next c) (c :: (gap ++ segment)) [] := by
  refine ⟨h.toFollows.kept c, ?_⟩
  rintro - _ ⟨⟩
  exact hc

/-- The gathered segment ends where the white space behind it starts. -/
theorem eq_of_append_eq {gap' : List Char} (h : Gathers outside segment gap)
    (heq : segment.reverse ++ gap.reverse = before ++ gap') (hpoint : IsBreakPoint before gap' c) :
    before = segment.reverse ∧ gap' = gap.reverse := by
  have hsegment : ∀ c ∈ segment.reverse.getLast?, Text.isBlank c = false := by
    rw [List.getLast?_reverse]
    exact h.solid rfl
  have hbefore : before = segment.reverse := by
    rw [← Text.trimEnd_append hpoint.last hpoint.blanks, ← heq,
      Text.trimEnd_append hsegment h.blanks]
  subst hbefore
  exact ⟨rfl, (List.append_cancel_left heq).symm⟩

end Gathers

/-- An operator ends the segment if it stands last in the text gathered. -/
theorem endsInOperator_iff :
    endsInOperator segment = true ↔
      ['|', '|'] <:+ segment.reverse ∨ ['&', '&'] <:+ segment.reverse := by
  rw [← List.reverse_prefix, ← List.reverse_prefix, List.reverse_reverse]
  change _ ↔ ['|', '|'] <+: segment ∨ ['&', '&'] <+: segment
  unfold endsInOperator
  split
  · simp
  · simp
  · next hor hand =>
    refine ⟨nofun, ?_⟩
    rintro (⟨rest, rfl⟩ | ⟨rest, rfl⟩)
    · exact absurd rfl (hor rest)
    · exact absurd rfl (hand rest)

/-- **What is taken for a break point** from the segment, is one in the text. -/
theorem isBreak_iff {depth : Int} (h : Gathers outside segment gap) (hc : Text.isBlank c = false) :
    (gap ≠ [] ∧ isBreak .anyDepth depth segment c = true) ↔
      IsBreakPoint segment.reverse gap.reverse c := by
  cases segment with
  | nil =>
      refine ⟨fun hbreak => by simp [isBreak] at hbreak, fun hpoint => ?_⟩
      obtain ⟨c, hc, -⟩ := hpoint.exists_last
      simp at hc
  | cons last segment =>
      have hedge : isBreak .anyDepth depth (last :: segment) c = true ↔
          ['|', '|'] <:+ (last :: segment).reverse ∨ ['&', '&'] <:+ (last :: segment).reverse ∨
            ['('] <:+ (last :: segment).reverse ∨ c = ')' := by
        have hparen : ['('] <:+ (last :: segment).reverse ↔ last = '(' := by
          rw [← List.reverse_prefix, List.reverse_reverse]
          simp [eq_comm]
        simp only [isBreak, Bool.or_eq_true, beq_iff_eq, endsInOperator_iff, hparen, or_assoc]
      rw [hedge]
      constructor
      · rintro ⟨hne, hedge⟩
        refine ⟨h.quotes_eq, h.blanks, by simpa using hne, ⟨last, ?_, h.solid rfl last rfl⟩, hc,
          hedge⟩
        simp
      · intro hpoint
        exact ⟨by simpa using hpoint.ne_nil, hpoint.edge⟩

/-! ### Segments -/

/-- Segments are trimmed. -/
theorem trimmed_of_mem_splitFrom {grain : Grain} {depth : Int} :
    ∀ part ∈ splitFrom grain depth quotes segment gap cs, Trimmed part := by
  induction cs generalizing depth quotes segment gap with
  | nil =>
      rw [splitFrom, List.forall_mem_singleton]
      exact Text.trimmed_trim _
  | cons c cs ih =>
      unfold splitFrom
      dsimp only
      split
      · exact ih
      split
      · exact ih
      split
      · exact List.forall_mem_cons.mpr ⟨Text.trimmed_trim _, ih⟩
      · exact ih

/-- **Segments are unbreakable**, by induction on what is left of the text. -/
theorem unbreakable_of_mem_splitFrom {depth : Int} (h : Gathers quotes segment gap)
    (hsegment : Unbreakable segment.reverse) :
    ∀ part ∈ splitFrom .anyDepth depth quotes segment gap cs, Unbreakable part := by
  induction cs generalizing depth quotes segment gap with
  | nil =>
      rw [splitFrom, List.forall_mem_singleton]
      exact hsegment.trim
  | cons c cs ih =>
      by_cases hq : quotes = outside
      · subst hq
        by_cases hc : Text.isBlank c = true
        · rw [splitFrom_blank hc]
          exact ih (h.blank hc) hsegment
        · rw [splitFrom_kept hc]
          rw [Bool.not_eq_true] at hc
          split
          · exact List.forall_mem_cons.mpr
              ⟨hsegment.trim, ih (.start hc) (unbreakable_singleton c)⟩
          · next hbreak =>
            rw [isBreak_iff h hc] at hbreak
            refine ih (h.kept hc) ?_
            rw [List.reverse_cons, List.reverse_append]
            refine (hsegment.append_blanks h.blanks).concat fun before gap' heq hpoint => ?_
            obtain ⟨rfl, rfl⟩ := h.eq_of_append_eq heq hpoint
            exact hbreak hpoint
      · rw [splitFrom_inside hq]
        refine ih (h.inside hq c) ?_
        rw [List.reverse_cons]
        refine hsegment.concat fun before gap' heq hpoint => hq ?_
        have hquotes := h.quotes_eq
        rw [heq, Quotes.after_append, hpoint.closed, Quotes.after_blanks hpoint.blanks] at hquotes
        exact hquotes.symm

/-- What is unbreakable is gathered in one segment. -/
theorem splitFrom_of_unbreakable {depth : Int} (h : Gathers quotes segment gap)
    (htext : Unbreakable (segment.reverse ++ (gap.reverse ++ cs))) :
    splitFrom .anyDepth depth quotes segment gap cs =
      [Text.trim (segment.reverse ++ (gap.reverse ++ cs))] := by
  induction cs generalizing depth quotes segment gap with
  | nil => rw [splitFrom, List.append_nil, Text.trim_append_blanks h.blanks]
  | cons c cs ih =>
      by_cases hq : quotes = outside
      · subst hq
        by_cases hc : Text.isBlank c = true
        · rw [splitFrom_blank hc]
          simpa using ih (h.blank hc) (by simpa using htext)
        · rw [splitFrom_kept hc]
          rw [Bool.not_eq_true] at hc
          split
          · next hbreak =>
            rw [isBreak_iff h hc] at hbreak
            exact absurd hbreak (htext _ _ _ _ rfl)
          · simpa using ih (h.kept hc) (by simpa using htext)
      · rw [splitFrom_inside hq, h.gap_eq_nil hq] at *
        simpa using ih (h.inside hq c) (by simpa using htext)

/-- An unbreakable text is its own only segment. -/
theorem splitAtBreaks_eq_singleton (hne : text ≠ []) (htrimmed : Trimmed text)
    (h : Unbreakable text) : splitAtBreaks .anyDepth text = [text] := by
  rw [splitAtBreaks, splitFrom_of_unbreakable .nil h, List.reverse_nil, List.nil_append,
    List.nil_append, Text.trim_eq_self htrimmed hne]
  simp [hne]

/-- Each segment of a text is its own only segment, and there is no break point in it. -/
theorem unbreakable_of_mem_splitAtBreaks {part : List Char}
    (h : part ∈ splitAtBreaks .anyDepth text) :
    splitAtBreaks .anyDepth part = [part] ∧ Unbreakable part := by
  obtain ⟨hpart, hne⟩ := List.mem_filter.mp h
  have hunbreakable := unbreakable_of_mem_splitFrom .nil unbreakable_nil part hpart
  exact ⟨splitAtBreaks_eq_singleton (by simpa using hne) (trimmed_of_mem_splitFrom part hpart)
    hunbreakable, hunbreakable⟩

/-! ### Lines -/

/-- A packed line beyond the limit is a single segment. -/
theorem fits_or_mem_of_mem_packFrom {line : List Char} {segments : List (List Char)} :
    ∀ packed ∈ packFrom line segments,
      packed.length ≤ lineLimit ∨ packed = line ∨ packed ∈ segments := by
  induction segments generalizing line with
  | nil =>
      unfold packFrom
      split <;> simp
  | cons segment segments ih =>
      intro packed hpacked
      unfold packFrom at hpacked
      split at hpacked
      · grind
      split at hpacked
      · next hle =>
        have hmerged : (line ++ ' ' :: segment).length ≤ lineLimit := by
          rw [List.length_append, List.length_cons]
          omega
        rcases ih packed hpacked with h | rfl | h
        · exact .inl h
        · exact .inl hmerged
        · exact .inr (.inr (List.mem_cons_of_mem _ h))
      · grind

/-- A line fits or is one of the segments. -/
theorem fits_or_mem_of_mem_pack {line : List Char} {segments : List (List Char)}
    (h : line ∈ pack segments) : line.length ≤ lineLimit ∨ line ∈ segments := by
  rcases fits_or_mem_of_mem_packFrom line h with h | rfl | h
  · exact .inl h
  · exact .inl (Nat.zero_le _)
  · exact .inr h

/-- A line fits or cannot be broken. -/
theorem fits_or_unbreakable_of_mem_breakAtParens {line : List Char}
    (h : line ∈ breakAtParens text) :
    line.length ≤ lineLimit ∨ splitAtBreaks .anyDepth line = [line] ∧ Unbreakable line := by
  unfold breakAtParens at h
  dsimp only at h
  split at h
  · next hfits =>
    rw [List.mem_singleton.mp h]
    exact .inl (by simpa [fits] using hfits)
  · exact (fits_or_mem_of_mem_pack h).imp_right unbreakable_of_mem_splitAtBreaks

namespace Str

/-- **A line exceeds the limit only if it cannot be broken.** Broken at the finer grain it is its
only segment, because there is no break point in it. -/
theorem fits_or_unbreakable (text : String) : ∀ line ∈ breakLines text,
    line.length ≤ lineLimit ∨
      splitAtBreaks .anyDepth line.toList = [line.toList] ∧ Unbreakable line.toList := by
  rw [breakLines, List.forall_mem_map]
  intro line hline
  rw [String.toList_ofList, String.length_ofList]
  unfold Wrap.breakLines at hline
  dsimp only at hline
  split at hline
  · next hfits =>
    rw [List.mem_singleton.mp hline]
    exact .inl (by simpa [fits] using hfits)
  · obtain ⟨packed, -, hline⟩ := List.mem_flatMap.mp hline
    split at hline
    · next hfits =>
      rw [List.mem_singleton.mp hline]
      exact .inl (by simpa [fits] using hfits)
    · exact fits_or_unbreakable_of_mem_breakAtParens hline

/-- A string of some length between two operators, in parentheses. -/
theorem fits_or_unbreakable_quoted :
    let quoted := "'" ++ String.join (List.replicate 25 "a || b") ++ "'"
    let text := "( " ++ quoted ++ " ||  github.actor ) && !cancelled()"
    breakLines text = ["(", quoted ++ " ||", "github.actor ) &&", "!cancelled()"] ∧
      splitAtBreaks .anyDepth (quoted ++ " ||").toList = [(quoted ++ " ||").toList] ∧
      Unbreakable (quoted ++ " ||").toList := by
  intro quoted text
  have hlines : breakLines text =
      ["(", quoted ++ " ||", "github.actor ) &&", "!cancelled()"] := by
    decide +kernel
  have hbeyond : ¬(quoted ++ " ||").length ≤ lineLimit := by decide +kernel
  have hmem : quoted ++ " ||" ∈ breakLines text := by simp [hlines]
  exact ⟨hlines, (fits_or_unbreakable text (quoted ++ " ||") hmem).resolve_left hbeyond⟩

end Str

end AgentPipeline.Wrap
