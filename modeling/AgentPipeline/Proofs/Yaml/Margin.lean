import AgentPipeline.Proofs.Text.Line
import AgentPipeline.Proofs.Yaml.Deeper
import AgentPipeline.Proofs.Yaml.Indent
import AgentPipeline.Yaml.Entry

/-!
# Texts behind a margin

The entries and the items of the user's values put the same margin in front of each line behind the
first one, and it does not matter whether there is anything on the line (`padLines`). Their texts
stand deeper than the text of an item at the left (`deeper_padLines`).
-/

namespace AgentPipeline.Yaml

variable {c : Char} {cs xs ys : List Char} {indent n : Nat} {p p' : Position}

/-- The text with a margin of `n` spaces in front of each line but the first. -/
def padLines (n : Nat) (cs : List Char) : List Char :=
  cs.flatMap fun c => if c = '\n' then '\n' :: spaces n else [c]

/-- Texts are indented one after the other. -/
theorem padLines_append : padLines n (xs ++ ys) = padLines n xs ++ padLines n ys :=
  List.flatMap_append

/-- A character other than a line feed stays as it is. -/
theorem padLines_cons (h : c ≠ '\n') : padLines n (c :: cs) = c :: padLines n cs := by
  simp [padLines, h]

/-- Behind a line feed comes the margin. -/
theorem padLines_newline : padLines n ('\n' :: cs) = '\n' :: (spaces n ++ padLines n cs) := rfl

/-- A text on one line stays as it is. -/
theorem padLines_of_notMem (h : '\n' ∉ cs) : padLines n cs = cs := by
  induction cs with
  | nil => rfl
  | cons c cs ih =>
      rw [List.mem_cons, not_or] at h
      rw [padLines_cons (Ne.symm h.1), ih h.2]

/-- The first line of a text has a margin, unless it is empty. -/
theorem exists_indentLines_eq (width : Nat) (cs : List Char) :
    ∃ n ≤ width, (∀ c ∈ cs.head?, isBreak c = false → n = width) ∧
      indentLines width true cs = List.replicate n ' ' ++ indentLines width false cs := by
  cases cs with
  | nil => exact ⟨0, Nat.zero_le _, by simp, rfl⟩
  | cons d cs =>
      cases hd : isBreak d with
      | true => exact ⟨0, Nat.zero_le _, by simp [hd], by simp [indentLines, hd]⟩
      | false => exact ⟨width, Nat.le_refl _, fun _ _ _ => rfl, by simp [indentLines, hd]⟩

/-- **A text behind a margin stands deeper**: it has the lines of the text of an item at the left,
further to the right by the column of the margin. -/
theorem deeper_padLines (hbreaks : ∀ c ∈ cs, isBreak c = true → c = '\n')
    (hcolumn : ∀ c ∈ cs.head?, isBreak c = false → 2 ≤ p.column ∧ p'.column = p.column + indent) :
    Deeper 2 indent p (indentLines 2 false cs ++ ['\n']) p'
      (padLines (indent + 2) cs ++ ['\n']) := by
  induction cs generalizing p p' with
  | nil =>
      have hend : Deeper 2 indent p ('\n' :: (List.replicate 0 ' ' ++ [])) p'
          ('\n' :: (List.replicate 0 ' ' ++ [])) :=
        .line (Nat.zero_le _) (Nat.zero_le _) (.nil _ _)
      exact hend
  | cons c cs ih =>
      rw [List.forall_mem_cons] at hbreaks
      cases hbreak : isBreak c with
      | false =>
          have hc : c ≠ '\n' := by
            rintro rfl
            cases hbreak
          obtain ⟨hle, heq⟩ := hcolumn c rfl hbreak
          have hline : indentLines 2 false (c :: cs) = c :: indentLines 2 false cs := by
            simp [indentLines, hbreak]
          have hnext : 2 ≤ (p.next c).column ∧ (p'.next c).column = (p.next c).column + indent := by
            simp only [Position.next]
            omega
          rw [hline, padLines_cons hc]
          exact .char hbreak hle heq (ih hbreaks.2 fun _ _ _ => hnext)
      | true =>
          obtain rfl := hbreaks.1 hbreak
          -- an empty line has no margin in the first text
          obtain ⟨n, hn, hmargin, hline⟩ := exists_indentLines_eq 2 cs
          have hnext : Deeper 2 indent (p.indented n) (indentLines 2 false cs ++ ['\n'])
              (p'.indented (indent + 2)) (padLines (indent + 2) cs ++ ['\n']) :=
            ih hbreaks.2 fun c hc hbreak => by
              rw [Position.column_indented, Position.column_indented, hmargin c hc hbreak]
              omega
          have hdeeper := Deeper.line hn (Nat.le_of_eq (Nat.add_comm indent 2)) hnext
          change Deeper 2 indent p ('\n' :: indentLines 2 true cs ++ ['\n']) p' _
          rw [padLines_newline, hline]
          simpa [spaces] using hdeeper

/-! ### Entries and items -/

/-- The lines of a text, each behind a line break and a margin. -/
theorem toList_join_lines (hbreaks : ∀ c ∈ cs, isBreak c = true → c = '\n') (hne : cs ≠ [])
    (hlast : cs.getLast? ≠ some '\n') :
    (String.join (((Text.lines cs).map String.ofList).map fun line =>
      "\n" ++ pad n ++ line)).toList = '\n' :: (spaces n ++ padLines n cs) := by
  induction cs using Text.lines_induction with
  | line cs h =>
      rw [Text.lines_of_notMem h hne, padLines_of_notMem h]
      simp [pad]
  | cons xs ys h ih =>
      rw [List.forall_mem_append, List.forall_mem_cons] at hbreaks
      have hline := notMem_of_breaks hbreaks.1 h
      have hreturn : '\r' ∉ xs := fun hc => absurd (hline _ hc) (by decide)
      obtain ⟨hys, hlast'⟩ := getLast?_behind_newline hlast
      rw [Text.lines_newline h, Text.dropLineEnd_newline hreturn, List.map_cons, List.map_cons,
        String.join_cons, String.toList_append, ih hbreaks.2.2 hys hlast', padLines_append,
        padLines_of_notMem h, padLines_newline]
      simp [pad]

/-- **The item of a value** is its text behind a dash and a margin. -/
theorem toList_listItem {v : Value} (hbreaks : ∀ c ∈ printed v, isBreak c = true → c = '\n')
    (hne : printed v ≠ []) (hlast : (printed v).getLast? ≠ some '\n') :
    (listItem indent v).toList =
      spaces indent ++ '-' :: ' ' :: padLines (indent + 2) (printed v) := by
  have hjoin := toList_join_lines (n := indent + 2) hbreaks hne hlast
  have hpad (line : String) :
      "\n" ++ pad indent ++ "  " ++ line = "\n" ++ pad (indent + 2) ++ line := by
    rw [← String.toList_inj]
    simp [pad, spaces, List.replicate_add]
  unfold listItem printedLines
  split
  · next hnil =>
    rw [hnil] at hjoin
    cases hjoin
  · next first rest hlines =>
    rw [hlines, List.map_cons, String.join_cons, String.toList_append, String.toList_append,
      String.toList_append] at hjoin
    have hjoin : first.toList ++ (String.join (rest.map fun line =>
        "\n" ++ pad (indent + 2) ++ line)).toList = padLines (indent + 2) (printed v) := by
      simpa [pad] using hjoin
    simp only [hpad, String.toList_append, ← hjoin]
    simp [pad]

/-- **The entry of a collection** is its text on the lines below the key, behind a margin. -/
theorem toList_valueEntry {v : Value} {key : String} (hv : v.isCollection = true)
    (hbreaks : ∀ c ∈ printed v, isBreak c = true → c = '\n') (hne : printed v ≠ [])
    (hlast : (printed v).getLast? ≠ some '\n') :
    (valueEntry indent key v).toList = spaces indent ++ (key.toList ++
      ':' :: '\n' :: (spaces (indent + 2) ++ padLines (indent + 2) (printed v))) := by
  have hjoin := toList_join_lines (n := indent + 2) hbreaks hne hlast
  have hbelow : valueEntry indent key v = pad indent ++ key ++ ":" ++ String.join
      ((printedLines v).map fun line => "\n" ++ pad (indent + 2) ++ line) := by
    cases v with
    | sequence => rfl
    | mapping => rfl
    | _ => cases hv
  rw [hbelow, String.toList_append, printedLines, hjoin]
  simp [pad]

end AgentPipeline.Yaml
