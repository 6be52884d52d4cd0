import AgentPipeline.Proofs.Condition.Between
import AgentPipeline.Proofs.Condition.Lines
import AgentPipeline.Proofs.Condition.Wrap
import AgentPipeline.Proofs.Text.Line
import AgentPipeline.Proofs.Yaml.Spelling

/-!
# Reading the entry of a condition

A condition that does not stay on one line is written as a folded block, and whoever reads the
block joins its rows by spaces (`readCondition?`). The rows are the lines of the condition, each
of them wrapped on its own. So a line break of the condition comes back as a space, and it depends
on where the line breaks are whether that matters: outside of quotes they are white space like any
other, and the condition comes back up to spacing; between quotes they belong to a string, which
comes back changed. The words are the same in either case (`readCondition?_ifEntry`).
-/

namespace AgentPipeline.Yaml

open Quotes (outside)
open Wrap (join)

/-! ### Lines wrapped one by one -/

/-- No line break of the text stands between quotes. -/
def LineBreaksOutside (cs : List Char) : Prop :=
  ∀ before behind, cs = before ++ '\n' :: behind → outside.after before = outside

/-- The lines of a text, each of them wrapped. -/
def wrappedLines (cs : List Char) : List (List Char) :=
  (Text.lines cs).flatMap Wrap.breakLines

variable {cs xs ys : List Char}

/-- A text on one line is wrapped as it is. -/
theorem wrappedLines_of_notMem (h : '\n' ∉ cs) (hne : cs ≠ []) :
    wrappedLines cs = Wrap.breakLines cs := by
  rw [wrappedLines, Text.lines_of_notMem h hne, List.flatMap_singleton]

/-- A text with a line feed is wrapped line by line. -/
theorem wrappedLines_newline (h : '\n' ∉ xs) :
    wrappedLines (xs ++ '\n' :: ys) =
      Wrap.breakLines (Text.dropLineEnd (xs ++ ['\n'])) ++ wrappedLines ys := by
  rw [wrappedLines, Text.lines_newline h, List.flatMap_cons, wrappedLines]

/-- **Wrapping the lines one by one** changes white space outside of quotes and nothing else, if
no line ends between quotes. -/
theorem respaced_wrappedLines (h : LineBreaksOutside cs) :
    Respaced true outside cs (join (wrappedLines cs)) := by
  induction cs using Text.lines_induction with
  | line cs hcs =>
      by_cases hne : cs = []
      · subst hne
        exact .nil
      · rw [wrappedLines_of_notMem hcs hne]
        exact Wrap.respaced_breakLines cs
  | cons xs ys hxs ih =>
      -- the white space in front of the line feed and the line feed are one run
      obtain ⟨back, heq, hback⟩ := Text.exists_dropLineEnd xs
      have hclosed : outside.after xs = outside := h xs ys rfl
      have hline : outside.after (Text.dropLineEnd (xs ++ ['\n'])) = outside := by
        rw [heq, Quotes.after_append] at hclosed
        exact Quotes.outside_of_after_blanks (Quotes.proper_outside.after _) hback hclosed
      have hrun : Text.Blanks (back ++ ['\n']) :=
        List.forall_mem_append.mpr ⟨hback, Text.blanks_cons.mpr ⟨by decide, Text.blanks_nil⟩⟩
      have hys : LineBreaksOutside ys := by
        intro before behind hsplit
        have hafter : outside.after (xs ++ '\n' :: before) = outside :=
          h _ behind (by rw [hsplit, List.append_assoc, List.cons_append])
        rwa [Quotes.after_append, hclosed, Quotes.after_cons,
          Quotes.next_blank (by decide)] at hafter
      have hjoin := Wrap.respaced_join_append (Wrap.respaced_breakLines _) hline hrun (by simp)
        (ih hys)
      rw [wrappedLines_newline hxs]
      rwa [List.append_assoc, List.singleton_append, ← List.append_assoc, ← heq] at hjoin

/-- **Wrapping the lines one by one** keeps the words, wherever the quotes are. -/
theorem collapse_wrappedLines (cs : List Char) :
    Text.collapse (join (wrappedLines cs)) = Text.collapse cs := by
  have hwords (line : List Char) :
      (Wrap.breakLines line).flatMap Text.words = Text.words line := by
    rw [← Wrap.words_join]
    exact ((Wrap.respaced_breakLines line).words_append [] fun _ => rfl).symm
  rw [Text.collapse, Text.collapse, Wrap.words_join, wrappedLines,
    List.flatMap_assoc]
  simp only [hwords, Text.words_lines]

/-- There is no line break in a row of a block. -/
theorem notMem_of_mem_wrappedLines : ∀ row ∈ wrappedLines cs, '\n' ∉ row := by
  intro row hrow hmem
  obtain ⟨line, hline, hrow⟩ := List.mem_flatMap.mp hrow
  have hmem' := Wrap.breakLines_subset (List.mem_flatten.mpr ⟨row, hrow, hmem⟩)
  exact Text.notMem_of_mem_lines line hline (by simpa using hmem')

/-! ### Reading -/

/-- The condition in an entry, read as a folded block is read: the text behind the key, or the
rows of the block without their indentation, joined by spaces. -/
def readCondition? (indent : Nat) (entry : String) : Option String := do
  let value ← (spaces indent ++ "if: ".toList).isPrefixOf? entry.toList
  match value.splitOn '\n' with
  | ['>'] :: rows =>
      let rows ← rows.mapM (spaces (indent + 2)).isPrefixOf?
      some (String.ofList (join rows))
  | _ => some (String.ofList value)

/-- Rows joined by line feeds. -/
theorem intercalate_newline (first : List Char) (rows : List (List Char)) :
    ['\n'].intercalate (first :: rows) = first ++ rows.flatMap ('\n' :: ·) := by
  induction rows generalizing first with
  | nil => simp
  | cons row rows ih => rw [List.intercalate_cons_cons, ih]; simp

/-- The margin is taken off rows that have it. -/
theorem mapM_isPrefixOf? (pad : List Char) (rows : List (List Char)) :
    (rows.map (pad ++ ·)).mapM pad.isPrefixOf? = some rows := by
  induction rows with
  | nil => rfl
  | cons row rows ih =>
      have hrow : pad.isPrefixOf? (pad ++ row) = some row :=
        List.isPrefixOf?_eq_some_iff_append_eq.mpr rfl
      rw [List.map_cons, List.mapM_cons, hrow, ih]
      rfl

/-- A condition that stays on one line is read as it is written. -/
theorem readCondition?_inline {indent : Nat} {e : String} (h : isFolded e = false) :
    readCondition? indent (ifEntry indent e) = some e := by
  obtain ⟨⟨-, hnotMem⟩, hplain⟩ : (_ ∧ '\n' ∉ e.toList) ∧ needsQuotes e = false := by
    simpa [isFolded] using h
  have htext : (spaces indent ++ "if: ".toList).isPrefixOf? (ifEntry indent e).toList =
      some e.toList := by
    rw [List.isPrefixOf?_eq_some_iff_append_eq]
    simp [ifEntry, h, pad]
  have hsplit : e.toList.splitOn '\n' = [e.toList] := List.splitOn_eq_singleton hnotMem
  have hne : e.toList ≠ ['>'] := by
    intro heq
    have hhead := (unquoted_of_needsQuotes hplain).head '>' (by rw [heq]; rfl)
    exact absurd hhead (by decide)
  rw [readCondition?, htext, Option.bind_eq_bind, Option.bind_some, hsplit]
  split
  · next heq => exact absurd (List.cons.inj heq).1 hne
  · rw [String.ofList_toList]

/-- A condition in a folded block is read as its wrapped lines. -/
theorem readCondition?_folded {indent : Nat} {e : String} (h : isFolded e = true) :
    readCondition? indent (ifEntry indent e) =
      some (String.ofList (join (wrappedLines e.toList))) := by
  have hrows : (foldedLines e).map String.toList = wrappedLines e.toList := by
    simp [foldedLines, wrappedLines, Text.Str.lines, Wrap.Str.breakLines, List.map_flatMap,
      List.flatMap_map, Function.comp_def]
  let rows := (wrappedLines e.toList).map (spaces (indent + 2) ++ ·)
  have htext : (spaces indent ++ "if: ".toList).isPrefixOf? (ifEntry indent e).toList =
      some (['\n'].intercalate (['>'] :: rows)) := by
    rw [List.isPrefixOf?_eq_some_iff_append_eq, intercalate_newline]
    simp [ifEntry, h, pad, rows, String.toList_join, List.flatMap_map, ← hrows]
  have hsplit : (['\n'].intercalate (['>'] :: rows)).splitOn '\n' = ['>'] :: rows := by
    refine List.splitOn_intercalate '\n' ?_ (by simp)
    rw [List.forall_mem_cons, List.forall_mem_map]
    refine ⟨by decide, fun row hrow => ?_⟩
    simp [spaces, notMem_of_mem_wrappedLines row hrow]
  have hread : rows.mapM (spaces (indent + 2)).isPrefixOf? = some (wrappedLines e.toList) :=
    mapM_isPrefixOf? _ _
  rw [readCondition?, htext, Option.bind_eq_bind, Option.bind_some, hsplit]
  change Option.bind (rows.mapM _) _ = _
  rw [hread]
  rfl

/-! ### Round trips -/

/-- **Reading a condition back.** The words of a condition always come back from its entry, and
the condition itself comes back, up to white space outside of quotes, just if no line of it ends
between quotes. -/
theorem readCondition?_ifEntry (indent : Nat) {e : String} {t : Condition}
    (h : Condition.parse e = .ok t) :
    ∃ e', readCondition? indent (ifEntry indent e) = some e' ∧
      Text.Str.collapse e' = Text.Str.collapse e ∧
      ((∃ t', Condition.parse e' = .ok t' ∧ Condition.SameUpToSpacing t t') ↔
        LineBreaksOutside e.toList) := by
  cases hfolded : isFolded e with
  | false =>
      have hnotMem : '\n' ∉ e.toList := by
        simp only [isFolded, Bool.or_eq_false_iff] at hfolded
        simpa using hfolded.1.2
      refine ⟨e, readCondition?_inline hfolded, rfl, fun _ before behind hsplit => ?_, fun _ => ?_⟩
      · exact absurd (hsplit ▸ List.mem_append_right before List.mem_cons_self) hnotMem
      · exact Condition.exists_parse_of_respaced h (Respaced.refl _)
  | true =>
      have htext : (String.ofList (join (wrappedLines e.toList))).toList =
          join (wrappedLines e.toList) := String.toList_ofList
      refine ⟨_, readCondition?_folded hfolded, ?_, ?_, fun hlines => ?_⟩
      · rw [Text.Str.collapse, htext, collapse_wrappedLines, Text.Str.collapse]
      · rintro ⟨t', ht', hsame⟩ before behind hsplit
        -- a line break between quotes would have to come back, but there is none in the rows
        by_contra hquotes
        have hmem := Condition.mem_of_sameUpToSpacing h ht' hsame hsplit hquotes
        rw [htext] at hmem
        have hrow := List.cons_subset_cons ' ' (Wrap.join_subset (wrappedLines e.toList)) hmem
        simp only [List.mem_cons, List.mem_flatten] at hrow
        rcases hrow with hspace | hspace | ⟨row, hrow, hbreak⟩
        · exact absurd hspace (by decide)
        · exact absurd hspace (by decide)
        · exact notMem_of_mem_wrappedLines row hrow hbreak
      · refine Condition.exists_parse_of_respaced h ?_
        rw [htext]
        exact respaced_wrappedLines hlines

/-- A condition on two lines, with white space between quotes. -/
theorem readCondition?_ifEntry_twoLines :
    let e := "github.actor == 'a  b' &&\r\n\t!( failure() )"
    let t : Condition := .and (.leaf "github.actor == 'a  b'") (.not (.leaf "failure()"))
    Condition.parse e = .ok t ∧
      ifEntry 4 e = "    if: >\n      github.actor == 'a  b' &&\n      !( failure() )" ∧
      ∃ e', readCondition? 4 (ifEntry 4 e) = some e' ∧
        Text.Str.collapse e' = Text.Str.collapse e ∧
        ((∃ t', Condition.parse e' = .ok t' ∧ Condition.SameUpToSpacing t t') ↔
          LineBreaksOutside e.toList) := by
  intro e t
  have hscan : Token.scan e.toList =
      .ok [⟨.literal "github.actor == 'a  b'", 0⟩, ⟨.and, 23⟩, ⟨.not, 28⟩, ⟨.openParen, 29⟩,
        ⟨.literal "failure()", 31⟩, ⟨.closeParen, 41⟩] := by
    decide +kernel
  have hparen := Condition.Derives.paren (.conjunct (.unary (.primary (.literal "failure()"))))
  have hparse : Condition.parse e = .ok t :=
    Condition.parse_eq_ok_iff.mpr ⟨_, hscan, .conjunct (.and (.unary (.primary
      (.literal "github.actor == 'a  b'"))) (.not (.primary hparen)))⟩
  exact ⟨hparse, by decide +kernel, readCondition?_ifEntry 4 hparse⟩

/-- A string with a line break comes back with a space instead. -/
theorem not_sameUpToSpacing_ifEntry :
    let e := "github.event.comment.body == 'a\nb'"
    let e' := "github.event.comment.body == 'a b'"
    Condition.parse e = .ok (.leaf e) ∧
      ifEntry 0 e = "if: >\n  github.event.comment.body == 'a\n  b'" ∧
      readCondition? 0 (ifEntry 0 e) = some e' ∧
      ∀ t', Condition.parse e' = .ok t' → ¬Condition.SameUpToSpacing (.leaf e) t' := by
  intro e e'
  have hscan : Token.scan e.toList = .ok [⟨.literal e, 0⟩] := by decide +kernel
  have hparse : Condition.parse e = .ok (.leaf e) :=
    Condition.parse_eq_ok_iff.mpr ⟨_, hscan, .conjunct (.unary (.primary (.literal e)))⟩
  refine ⟨hparse, by decide +kernel, by decide +kernel, fun t' ht' hsame => ?_⟩
  have hsplit : e.toList = "github.event.comment.body == 'a".toList ++ '\n' :: "b'".toList := by
    decide +kernel
  have hmem := Condition.mem_of_sameUpToSpacing hparse ht' hsame hsplit (by decide +kernel)
  revert hmem
  decide +kernel

end AgentPipeline.Yaml
