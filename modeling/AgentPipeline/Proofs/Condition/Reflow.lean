import AgentPipeline.Proofs.Condition.SpacedScan
import AgentPipeline.Condition.Wrap

/-!
# Reading wrapped expressions

A long expression is cut into segments, the segments are packed into lines, and lines that are
still too long are cut and packed again. Joined by single spaces, the lines are the expression
with other white space outside of quotes (`respaced_breakLines`), whatever the text is.

Cutting follows the quotes with a state of its own, so the invariant of the cut is that the
state is the one behind the segment read so far (`areLines_splitFrom`). Hence a cut never falls
into quotes: every segment and every line, except for the last one, leaves no quotes open
(`LeavesNoQuotes`). A line that leaves none open is cut into lines of which not even the last one
does, so lines may be cut again one by one (`AreLines.flatMap`).

What can be read as a condition is therefore read as the same condition from its lines
(`exists_parse_breakLines`).
-/

namespace AgentPipeline.Wrap

open Quotes (outside)
open Text (Blanks)

/-- The lines joined by single spaces. -/
def join (lines : List (List Char)) : List Char := [' '].intercalate lines

/-- One line is joined to itself. -/
theorem join_singleton (line : List Char) : join [line] = line := List.intercalate_singleton

/-- The first of several lines is followed by a space and the others. -/
theorem join_cons {line : List Char} {lines : List (List Char)} (h : lines ≠ []) :
    join (line :: lines) = line ++ ' ' :: join lines := by
  rw [join, List.intercalate_cons_of_ne_nil h, List.append_assoc]
  rfl

/-- Two groups of lines are joined by a space between them. -/
theorem join_append {a b : List (List Char)} (ha : a ≠ []) (hb : b ≠ []) :
    join (a ++ b) = join a ++ ' ' :: join b := by
  induction a with
  | nil => exact absurd rfl ha
  | cons line a ih =>
      cases a with
      | nil => rw [List.singleton_append, join_cons hb, join_singleton]
      | cons line' a =>
          have hne : line' :: a ≠ [] := List.cons_ne_nil line' a
          have hne' : line' :: a ++ b ≠ [] := List.append_ne_nil_of_left_ne_nil hne b
          rw [List.cons_append, join_cons hne', ih hne, join_cons hne, List.append_assoc,
            List.cons_append]

/-- Joining adds spaces and no other characters. -/
theorem join_subset (lines : List (List Char)) : join lines ⊆ ' ' :: lines.flatten := by
  induction lines with
  | nil => exact List.nil_subset _
  | cons line lines ih =>
      by_cases hne : lines = []
      · subst hne
        simp [join_singleton]
      · rw [join_cons hne, List.flatten_cons]
        exact fun x hx => by grind [ih (a := x)]

/-! ### Texts that are cut -/

/-- No quotes are open behind the first of two lines, the second of which stands behind it. -/
def LeavesNoQuotes (line _ : List Char) : Prop := outside.after line = outside

/-- **Lines of a text**: joined by spaces they are the text with other white space outside of
quotes, and only the last one may leave quotes open. -/
structure AreLines (lines : List (List Char)) (text : List Char) : Prop where
  respaced : Respaced true outside text (join lines)
  closed : lines.Pairwise LeavesNoQuotes

/-- **Two texts with white space between them** may be cut into lines one by one, if no quotes
are open between them. -/
theorem respaced_join_append {a b run : List Char} {x y : List (List Char)}
    (ha : Respaced true outside a (join x)) (hclosed : outside.after a = outside)
    (hrun : Blanks run) (hne : run ≠ []) (hb : Respaced true outside b (join y)) :
    Respaced true outside (a ++ (run ++ b)) (join (x ++ y)) := by
  by_cases hx : x = []
  · subst hx
    have hblanks : Blanks a := ha.blanks_of_blanks Text.blanks_nil
    exact .drop_blanks hblanks (.drop_blanks hrun hb)
  by_cases hy : y = []
  · subst hy
    have hblanks : Blanks b := hb.blanks_of_blanks Text.blanks_nil
    rw [List.append_nil]
    exact ha.append_blanks (List.forall_mem_append.mpr ⟨hrun, hblanks⟩)
  rw [join_append hx hy]
  exact ha.append_blanks_append Quotes.proper_outside hclosed hrun hne hb

/-- The trimmed text, unless it is empty, is the only line. -/
theorem areLines_trim (text : List Char) : AreLines ([Text.trim text].filter (· ≠ [])) text := by
  have h := Respaced.trim text
  by_cases hnil : Text.trim text = []
  · rw [hnil] at h ⊢
    exact ⟨h, List.Pairwise.nil⟩
  · rw [List.filter_cons_of_pos (by simpa using hnil), List.filter_nil]
    exact ⟨by rwa [join_singleton], List.pairwise_singleton _ _⟩

/-- One more line in front, and white space behind it. -/
theorem AreLines.cons_trim {text rest run : List Char} {lines : List (List Char)}
    (hclosed : outside.after text = outside) (hrun : Blanks run) (hne : run ≠ [])
    (h : AreLines (lines.filter (· ≠ [])) rest) :
    AreLines ((Text.trim text :: lines).filter (· ≠ [])) (text ++ (run ++ rest)) := by
  rw [← List.singleton_append, List.filter_append]
  refine ⟨respaced_join_append (areLines_trim text).respaced hclosed hrun hne h.respaced, ?_⟩
  refine List.pairwise_append.mpr ⟨(areLines_trim text).closed, h.closed, ?_⟩
  intro line hline _ _
  obtain rfl : line = Text.trim text := List.mem_singleton.mp (List.mem_of_mem_filter hline)
  exact Quotes.after_trim hclosed

/-! ### Cutting -/

section Split

variable {grain : Grain} {depth : Int} {quotes : Quotes} {segment gap cs : List Char} {c : Char}

/-- Inside of quotes nothing is cut. -/
theorem splitFrom_inside (h : quotes ≠ outside) :
    splitFrom grain depth quotes segment gap (c :: cs) =
      splitFrom grain depth (quotes.next c) (c :: segment) [] cs := by
  rw [splitFrom, if_pos h]

/-- White space is set aside, since a cut may fall there. -/
theorem splitFrom_blank (h : Text.isBlank c = true) :
    splitFrom grain depth outside segment gap (c :: cs) =
      splitFrom grain depth outside segment (c :: gap) cs := by
  rw [splitFrom, if_neg (by simp), if_pos h, Quotes.next_blank h]

/-- A character outside of quotes starts a segment or continues the last one. -/
theorem splitFrom_kept (h : ¬Text.isBlank c = true) :
    splitFrom grain depth outside segment gap (c :: cs) =
      if gap ≠ [] ∧ isBreak grain depth segment c then
        Text.trim segment.reverse ::
          splitFrom grain (depth + depthChange c) (outside.next c) [c] [] cs
      else
        splitFrom grain (depth + depthChange c) (outside.next c) (c :: (gap ++ segment)) [] cs := by
  rw [splitFrom, if_neg (by simp), if_neg h]

/-- **What cutting keeps**: the state of the quotes is the one behind the segment, and white
space is set aside only outside of quotes. -/
structure Follows (quotes : Quotes) (segment gap : List Char) : Prop where
  quotes_eq : outside.after segment.reverse = quotes
  blanks : Blanks gap.reverse
  outside_of_gap : gap ≠ [] → quotes = outside

/-- At the start there is neither a segment nor white space. -/
theorem follows_nil : Follows outside [] [] := ⟨rfl, Text.blanks_nil, nofun⟩

/-- A segment starts with its first character. -/
theorem follows_start (c : Char) : Follows (outside.next c) [c] [] :=
  ⟨rfl, Text.blanks_nil, nofun⟩

namespace Follows

/-- Inside of quotes no white space is set aside. -/
theorem gap_eq_nil (h : Follows quotes segment gap) (hq : quotes ≠ outside) : gap = [] := by
  by_contra hne
  exact hq (h.outside_of_gap hne)

/-- A character inside of quotes. -/
theorem inside (h : Follows quotes segment gap) (c : Char) :
    Follows (quotes.next c) (c :: segment) [] := by
  refine ⟨?_, Text.blanks_nil, nofun⟩
  rw [List.reverse_cons, Quotes.after_append, h.quotes_eq]
  rfl

/-- White space outside of quotes. -/
theorem blank (h : Follows outside segment gap) (hc : Text.isBlank c = true) :
    Follows outside segment (c :: gap) := by
  refine ⟨h.quotes_eq, ?_, fun _ => rfl⟩
  rw [List.reverse_cons]
  exact List.forall_mem_append.mpr ⟨h.blanks, by simpa using hc⟩

/-- A character behind white space that is no break point. -/
theorem kept (h : Follows outside segment gap) (c : Char) :
    Follows (outside.next c) (c :: (gap ++ segment)) [] := by
  refine ⟨?_, Text.blanks_nil, nofun⟩
  rw [List.reverse_cons, List.reverse_append, Quotes.after_append, Quotes.after_append,
    h.quotes_eq, Quotes.after_blanks h.blanks]
  rfl

end Follows

/-- **Cutting** changes white space outside of quotes and nothing else, by induction on what is
left of the text. -/
theorem areLines_splitFrom (h : Follows quotes segment gap) (depth : Int) :
    AreLines ((splitFrom grain depth quotes segment gap cs).filter (· ≠ []))
      (segment.reverse ++ (gap.reverse ++ cs)) := by
  induction cs generalizing depth quotes segment gap with
  | nil =>
      obtain ⟨hrespaced, hclosed⟩ := areLines_trim segment.reverse
      rw [splitFrom, List.append_nil]
      exact ⟨hrespaced.append_blanks h.blanks, hclosed⟩
  | cons c cs ih =>
      by_cases hq : quotes = outside
      · subst hq
        by_cases hc : Text.isBlank c = true
        · have hlines := ih (h.blank hc) depth
          rw [splitFrom_blank hc]
          simpa using hlines
        · rw [splitFrom_kept hc]
          split
          · next hbreak =>
            have hne : gap.reverse ≠ [] := by simpa using hbreak.1
            exact AreLines.cons_trim h.quotes_eq h.blanks hne (ih (follows_start c) _)
          · have hlines := ih (h.kept c) (depth + depthChange c)
            simpa using hlines
      · have hlines := ih (h.inside c) depth
        rw [splitFrom_inside hq, h.gap_eq_nil hq]
        simpa using hlines

/-- **The segments of a text** are its lines. -/
theorem areLines_splitAtBreaks (grain : Grain) (text : List Char) :
    AreLines (splitAtBreaks grain text) text :=
  areLines_splitFrom follows_nil 0

end Split

/-! ### Packing -/

section Pack

variable {line segment : List Char} {segments : List (List Char)}

/-- Behind the last segment the line is complete. -/
theorem packFrom_nil (h : line ≠ []) : packFrom line [] = [line] := by
  rw [packFrom, if_neg h]

/-- A segment joins the line if it fits, and else starts the next one. -/
theorem packFrom_cons (h : line ≠ []) :
    packFrom line (segment :: segments) =
      if line.length + 1 + segment.length ≤ lineLimit then
        packFrom (line ++ ' ' :: segment) segments
      else line :: packFrom segment segments := by
  rw [packFrom, if_neg h]

/-- Putting a segment on a line does not change what is joined. -/
theorem join_merge (line segment : List Char) (segments : List (List Char)) :
    join ((line ++ ' ' :: segment) :: segments) = join (line :: segment :: segments) := by
  rw [join_cons (List.cons_ne_nil segment segments)]
  cases segments with
  | nil => rw [join_singleton, join_singleton]
  | cons segment' segments =>
      have hne : segment' :: segments ≠ [] := List.cons_ne_nil segment' segments
      rw [join_cons hne, join_cons hne, List.append_assoc, List.cons_append]

/-- Packing gives at least one line. -/
theorem packFrom_ne_nil (h : line ≠ []) (hne : ∀ segment ∈ segments, segment ≠ []) :
    packFrom line segments ≠ [] := by
  induction segments generalizing line with
  | nil => simp [packFrom_nil h]
  | cons segment segments ih =>
      rw [List.forall_mem_cons] at hne
      rw [packFrom_cons h]
      split
      · exact ih (by simp) hne.2
      · simp

/-- Packed lines are the segments again when they are joined. -/
theorem join_packFrom (h : line ≠ []) (hne : ∀ segment ∈ segments, segment ≠ []) :
    join (packFrom line segments) = join (line :: segments) := by
  induction segments generalizing line with
  | nil => rw [packFrom_nil h]
  | cons segment segments ih =>
      rw [List.forall_mem_cons] at hne
      rw [packFrom_cons h]
      split
      · rw [ih (by simp) hne.2, join_merge]
      · rw [join_cons (packFrom_ne_nil hne.1 hne.2), ih hne.1 hne.2, ← join_cons (by simp)]

/-- A line with a segment put on it leaves no quotes open if neither does. -/
theorem after_merge (hline : outside.after line = outside)
    (hsegment : outside.after segment = outside) :
    outside.after (line ++ ' ' :: segment) = outside := by
  rw [Quotes.after_append, hline, Quotes.after_cons, Quotes.next_blank (by decide), hsegment]

/-- Packed lines leave no quotes open, except for the last one, if the segments do so. -/
theorem pairwise_packFrom (h : line ≠ []) (hne : ∀ segment ∈ segments, segment ≠ [])
    (hclosed : (line :: segments).Pairwise LeavesNoQuotes) :
    (packFrom line segments).Pairwise LeavesNoQuotes := by
  induction segments generalizing line with
  | nil =>
      rw [packFrom_nil h]
      exact List.pairwise_singleton _ _
  | cons segment segments ih =>
      rw [List.forall_mem_cons] at hne
      obtain ⟨hline, hsegments⟩ := List.pairwise_cons.mp hclosed
      have hline : outside.after line = outside := hline segment List.mem_cons_self
      rw [packFrom_cons h]
      split
      · refine ih (by simp) hne.2 (List.pairwise_cons.mpr ⟨fun last hlast => ?_, ?_⟩)
        · exact after_merge hline ((List.pairwise_cons.mp hsegments).1 last hlast)
        · exact (List.pairwise_cons.mp hsegments).2
      · exact List.pairwise_cons.mpr ⟨fun _ _ => hline, ih hne.1 hne.2 hsegments⟩

end Pack

/-- **Packing** the segments of a text makes lines of it. -/
theorem AreLines.pack {segments : List (List Char)} {text : List Char} (h : AreLines segments text)
    (hne : ∀ segment ∈ segments, segment ≠ []) : AreLines (pack segments) text := by
  cases segments with
  | nil => exact h
  | cons segment segments =>
      rw [List.forall_mem_cons] at hne
      have hpack : Wrap.pack (segment :: segments) = packFrom segment segments := by
        rw [Wrap.pack, packFrom, if_pos rfl]
      rw [hpack]
      refine ⟨?_, pairwise_packFrom hne.1 hne.2 h.closed⟩
      rw [join_packFrom hne.1 hne.2]
      exact h.respaced

/-! ### Wrapping -/

/-- The lines of one grain are lines of the text. -/
theorem areLines_pack (grain : Grain) (text : List Char) :
    AreLines (pack (splitAtBreaks grain (Text.trim text))) text := by
  have h : AreLines (pack (splitAtBreaks grain (Text.trim text))) (Text.trim text) := by
    refine (areLines_splitAtBreaks grain _).pack fun segment hsegment => ?_
    simpa using List.of_mem_filter hsegment
  exact ⟨(Respaced.trim text).trans h.respaced, h.closed⟩

/-- A text that fits is its only line. -/
theorem areLines_singleton (text : List Char) : AreLines [Text.trim text] text := by
  refine ⟨?_, List.pairwise_singleton _ _⟩
  rw [join_singleton]
  exact Respaced.trim text

/-- Cutting at parentheses and packing gives lines of the text. -/
theorem areLines_breakAtParens (text : List Char) : AreLines (breakAtParens text) text := by
  rw [breakAtParens]
  split
  · exact areLines_singleton text
  · exact areLines_pack .anyDepth text

/-- **Lines may be respaced one by one**, since no quotes are open between them. -/
theorem respaced_flatMap {lines : List (List Char)} {f : List Char → List (List Char)}
    (hclosed : lines.Pairwise LeavesNoQuotes)
    (hf : ∀ line, Respaced true outside line (join (f line))) :
    Respaced true outside (join lines) (join (lines.flatMap f)) := by
  induction lines with
  | nil => exact .nil
  | cons line lines ih =>
      obtain ⟨hline, hlines⟩ := List.pairwise_cons.mp hclosed
      rw [List.flatMap_cons]
      cases lines with
      | nil => simpa [join_singleton] using hf line
      | cons line' lines =>
          have hspace : Blanks [' '] := Text.blanks_cons.mpr ⟨by decide, Text.blanks_nil⟩
          rw [join_cons (List.cons_ne_nil line' lines)]
          exact respaced_join_append (hf line) (hline line' List.mem_cons_self) hspace (by simp)
            (ih hlines)

section Lines

variable {text : List Char} {lines : List (List Char)}

/-- If no quotes are open behind all lines, none are open behind any of them. -/
theorem forall_closed_of_join (hclosed : lines.Pairwise LeavesNoQuotes)
    (h : outside.after (join lines) = outside) : ∀ line ∈ lines, outside.after line = outside := by
  induction lines with
  | nil => nofun
  | cons line lines ih =>
      cases lines with
      | nil => simpa [join_singleton] using h
      | cons line' lines =>
          obtain ⟨hline, hlines⟩ := List.pairwise_cons.mp hclosed
          have hline : outside.after line = outside := hline line' List.mem_cons_self
          rw [join_cons (List.cons_ne_nil line' lines), Quotes.after_append, hline,
            Quotes.after_cons, Quotes.next_blank (by decide)] at h
          exact List.forall_mem_cons.mpr ⟨hline, ih hlines h⟩

/-- The lines of a text that leaves no quotes open leave none open. -/
theorem AreLines.forall_closed (h : AreLines lines text) (hclosed : outside.after text = outside) :
    ∀ line ∈ lines, outside.after line = outside :=
  forall_closed_of_join h.closed (h.respaced.after_eq_outside Quotes.proper_outside hclosed)

/-- **Lines may be cut again one by one.** -/
theorem AreLines.flatMap {f : List Char → List (List Char)} (h : AreLines lines text)
    (hf : ∀ line, AreLines (f line) line) : AreLines (lines.flatMap f) text := by
  refine ⟨h.respaced.trans (respaced_flatMap h.closed fun line => (hf line).respaced), ?_⟩
  rw [List.pairwise_flatMap]
  refine ⟨fun line _ => (hf line).closed, h.closed.imp ?_⟩
  intro line _ hline part hpart _ _
  exact (hf line).forall_closed hline part hpart

end Lines

/-- Wrapping gives lines of the text. -/
theorem areLines_breakLines (text : List Char) : AreLines (breakLines text) text := by
  rw [breakLines]
  split
  · exact areLines_singleton text
  · refine (areLines_pack .topLevel text).flatMap fun line => ?_
    split
    · refine ⟨?_, List.pairwise_singleton _ _⟩
      rw [join_singleton]
      exact Respaced.refl line
    · exact areLines_breakAtParens line

/-- **The lines of a wrapped expression**, joined by spaces, are the expression with other white
space outside of quotes. -/
theorem respaced_breakLines (text : List Char) :
    Respaced true outside text (join (breakLines text)) :=
  (areLines_breakLines text).respaced

namespace Str

/-- Joining strings is joining their characters. -/
theorem toList_intercalate_ofList (lines : List (List Char)) :
    (" ".intercalate (lines.map String.ofList)).toList = join lines := by
  rw [String.toList_intercalate, List.map_map]
  simp [Function.comp_def, join]

/-- The lines of a string joined by spaces. -/
theorem toList_intercalate_breakLines (text : String) :
    (" ".intercalate (breakLines text)).toList = join (Wrap.breakLines text.toList) :=
  toList_intercalate_ofList (Wrap.breakLines text.toList)

/-- **Line wrapping never changes the parsed condition.** What is read as a condition is read
from its lines, joined by single spaces, as a condition of the same shape, whose leaves are
equal up to white space outside of quotes. -/
theorem exists_parse_breakLines {text : String} {t : Condition}
    (h : Condition.parse text = .ok t) :
    ∃ t', Condition.parse (" ".intercalate (breakLines text)) = .ok t' ∧
      Condition.SameUpToSpacing t t' := by
  refine Condition.exists_parse_of_respaced h ?_
  rw [toList_intercalate_breakLines]
  exact respaced_breakLines text.toList

/-- An expression that is broken inside of an argument list and inside of `&&&`, with an operator
and white space between quotes. -/
theorem exists_parse_breakLines_call :
    let call := "contains( fromJSON('[\"a  ||  b\", \"collaborator\"]'),   " ++
      "github.event.comment.author_association, github.event.issue.number"
    let text := call ++ " )  &&&  github.actor ||\n !( b )"
    let t : Condition :=
      .or (.and (.leaf (call ++ " )")) (.leaf "&  github.actor")) (.not (.leaf "b"))
    Condition.parse text = .ok t ∧
      breakLines text = [call, ")  &&&", "github.actor || !( b )"] ∧
      ∃ t', Condition.parse (" ".intercalate (breakLines text)) = .ok t' ∧
        Condition.SameUpToSpacing t t' := by
  intro call text t
  have hscan : Token.scan text.toList =
      .ok [⟨.literal (call ++ " )"), 0⟩, ⟨.and, 124⟩, ⟨.literal "&  github.actor", 126⟩,
        ⟨.or, 142⟩, ⟨.not, 146⟩, ⟨.openParen, 147⟩, ⟨.literal "b", 149⟩, ⟨.closeParen, 151⟩] := by
    decide +kernel
  have hleft := Condition.Derives.and (.unary (.primary (.literal (call ++ " )"))))
    (.primary (.literal "&  github.actor"))
  have hparen := Condition.Derives.paren (.conjunct (.unary (.primary (.literal "b"))))
  have hparse : Condition.parse text = .ok t :=
    Condition.parse_eq_ok_iff.mpr
      ⟨_, hscan, Condition.Derives.or (.conjunct hleft) (.unary (.not (.primary hparen)))⟩
  exact ⟨hparse, by decide +kernel, exists_parse_breakLines hparse⟩

end Str

end AgentPipeline.Wrap
