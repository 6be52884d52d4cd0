import AgentPipeline.Pipeline.Prompt
import AgentPipeline.Proofs.Text.Line
import AgentPipeline.Proofs.Text.Trim

/-!
# The prompt between its delimiters

The search for a delimiter is a loop without a bound in sight. `Tries` is a run of it with the
number of candidates that it tests. Each candidate that is rejected is a line of its own, so every
search is such a run, with at most one test more than there are lines (`exists_tries`).

The script that writes the prompt goes through the hands of the shell, which reads the lines behind
a command up to the first one that is the mark: `document?`. As the mark is no line of the prompt,
the shell reads the prompt, all of it, and finds nothing behind the mark that it could run
(`delimits_prompt`). What counts as the prompt is said without the function that finds it
(`IsPromptOf`).
-/

namespace AgentPipeline.Prompt

open Text

variable {lines : List String} {n : Nat}

/-! ### Candidates -/

/-- A candidate consists of the letters of the first one and digits. -/
theorem notMem_candidate {c : Char} (hc : c ∉ (candidate 0 ++ "_").toList)
    (hdigit : c.isDigit = false) (n : Nat) : c ∉ (candidate n).toList := by
  cases n with
  | zero => exact fun h => hc (by simp [h])
  | succ n =>
      have hnumber : c ∉ (toString (n + 1)).toList := by
        rw [Nat.toString_eq_ofList_toDigits, String.toList_ofList]
        intro h
        rw [Nat.isDigit_of_mem_toDigits (by decide) (by decide) h] at hdigit
        cases hdigit
      change c ∉ ("GH_AW_PROMPT_EOF_" ++ toString (n + 1)).toList
      rw [String.toList_append, List.mem_append, not_or]
      exact ⟨hc, hnumber⟩

/-- The delimiter is one of the candidates. -/
theorem delimiter_eq_candidate (text : String) : ∃ n, delimiter text = candidate n := ⟨_, rfl⟩

/-- There is no white space in a candidate. -/
theorem isBlank_of_mem_candidate {c : Char} (h : c ∈ (candidate n).toList) :
    isBlank c = false := by
  by_contra hblank
  rw [Bool.not_eq_false] at hblank
  have hbase : ∀ d ∈ (candidate 0 ++ "_").toList, isBlank d = false := by
    have hall : (candidate 0 ++ "_").toList.all (!isBlank ·) = true := by decide
    simpa only [List.all_eq_true, Bool.not_eq_true'] using hall
  have hdigit : c.isDigit = false := Bool.eq_false_iff.mpr fun hdigit => by
    simp [isBlank_of_isDigit hdigit] at hblank
  exact notMem_candidate (fun hmem => by simp [hbase c hmem] at hblank) hdigit n h

/-- No candidate is empty. -/
theorem candidate_ne (n : Nat) : (candidate n).toList ≠ [] := by
  cases n with
  | zero => decide
  | succ n =>
      change ("GH_AW_PROMPT_EOF_" ++ toString (n + 1)).toList ≠ []
      rw [String.toList_append]
      exact List.append_ne_nil_of_left_ne_nil (by decide) _

/-- Candidates are trimmed. -/
theorem trim_candidate (n : Nat) : trim (candidate n).toList = (candidate n).toList :=
  trim_eq_self ⟨fun _ hc => isBlank_of_mem_candidate (List.mem_of_mem_head? hc),
    fun _ hc => isBlank_of_mem_candidate (List.mem_of_mem_getLast? hc)⟩ (candidate_ne n)

/-! ### The search for a delimiter -/

/-- A run of the search from the `n`-th candidate on: the number of candidates that it tests, and
the number of the one that it takes. -/
inductive Tries (lines : List String) : Nat → Nat → Nat → Prop
  | take {n : Nat} : candidate n ∉ lines → Tries lines n 1 n
  | pass {n tests found : Nat} : candidate n ∈ lines → Tries lines (n + 1) tests found →
      Tries lines n (tests + 1) found

/-- What the search takes is no line. -/
theorem Tries.notMem {tests found : Nat} (h : Tries lines n tests found) :
    candidate found ∉ lines := by
  induction h with
  | take h => exact h
  | pass _ _ ih => exact ih

/-- **The search ends**, with one test more than there are lines left, at most. -/
theorem exists_tries (lines : List String) (n : Nat) :
    ∃ tests ≤ (untried lines n).length + 1, Tries lines n tests (search lines n) := by
  fun_induction search lines n with
  | case1 n h ih =>
      obtain ⟨tests, htests, hrun⟩ := ih
      have hfewer := length_untried_lt h
      exact ⟨tests + 1, by omega, .pass h hrun⟩
  | case2 n h => exact ⟨1, by omega, .take h⟩

/-- The delimiter is no line of the prompt. -/
theorem delimiter_notMem (body : String) : delimiter body ∉ trimmedLines body := by
  obtain ⟨tests, -, hrun⟩ := exists_tries (trimmedLines body) 0
  exact hrun.notMem

example : delimiter "Say hi.\nGH_AW_PROMPT_EOF\nrm -rf /" = "GH_AW_PROMPT_EOF_1" := by
  decide +kernel

/-! ### The lines of a script -/

/-- The lines of a script: what stands between line feeds. -/
def scriptLines (text : List Char) : List (List Char) := text.splitOn '\n'

/-- What the shell makes of the lines behind a command whose document goes up to a mark: the
document, that is, the lines in front of the first one that is the mark, and the commands, that is,
the lines behind that one. -/
def document? (mark : List Char) (lines : List (List Char)) :
    Option (List (List Char) × List (List Char)) :=
  match lines.dropWhile (· != mark) with
  | [] => none
  | _ :: commands => some (lines.takeWhile (· != mark), commands)

/-- A line feed ends a line of the script. -/
theorem scriptLines_append (a b : List Char) :
    scriptLines (a ++ '\n' :: b) = scriptLines a ++ scriptLines b :=
  List.splitOnP_append_cons a b rfl

/-- A text without line feeds is one line. -/
theorem scriptLines_of_notMem {a : List Char} (h : '\n' ∉ a) : scriptLines a = [a] :=
  List.splitOnP_eq_singleton fun c hc => by
    rw [beq_eq_false_iff_ne]
    rintro rfl
    exact h hc

/-- A document without the mark among its lines is read as it is. -/
theorem document?_append {mark : List Char} {doc : List (List Char)} (h : mark ∉ doc)
    (commands : List (List Char)) :
    document? mark (doc ++ mark :: commands) = some (doc, commands) := by
  have hdoc : ∀ line ∈ doc, (line != mark) = true := fun line hline => by
    rw [bne_iff_ne]
    rintro rfl
    exact h hline
  rw [document?, List.dropWhile_append_of_pos hdoc, List.takeWhile_append_of_pos hdoc]
  simp

/-- A line of a text as a script is a line of the text, up to white space at the end. -/
theorem exists_line_of_mem_scriptLines {cs line : List Char} (h : line ∈ scriptLines cs)
    (hne : line ≠ []) : ∃ line' ∈ Text.lines cs, trim line' = trim line := by
  induction cs using lines_induction with
  | line cs hcs =>
      rw [scriptLines_of_notMem hcs, List.mem_singleton] at h
      subst h
      exact ⟨line, by simp [lines_of_notMem hcs hne], rfl⟩
  | cons xs ys hxs ih =>
      rw [scriptLines_append, scriptLines_of_notMem hxs, List.singleton_append,
        List.mem_cons] at h
      rw [lines_newline hxs]
      rcases h with rfl | h
      · obtain ⟨back, heq, hback⟩ := exists_dropLineEnd line
        refine ⟨_, List.mem_cons_self, ?_⟩
        conv_rhs => rw [heq, trim_append_blanks hback]
      · obtain ⟨line', hline', htrim⟩ := ih h
        exact ⟨line', List.mem_cons_of_mem _ hline', htrim⟩

/-- The delimiter of a text is no line of it as a script either. -/
theorem delimiter_notMem_scriptLines (body : String) :
    (delimiter body).toList ∉ scriptLines body.toList := by
  intro h
  obtain ⟨line, hline, htrim⟩ := exists_line_of_mem_scriptLines h (candidate_ne _)
  refine delimiter_notMem body (List.mem_map.mpr ⟨line, hline, ?_⟩)
  rw [htrim, delimiter, trim_candidate, String.ofList_toList]

/-! ### The prompt in a text -/

/-- **The prompt in a text**: the text is the prompt between any number of line feeds, none of
which belong to the prompt. -/
structure IsPromptOf (prompt text : String) : Prop where
  /-- the line feeds around the prompt -/
  between : ∃ front back : List Char, text.toList = front ++ prompt.toList ++ back ∧
    (∀ c ∈ front, c = '\n') ∧ ∀ c ∈ back, c = '\n'
  head : prompt.toList.head? ≠ some '\n'
  last : prompt.toList.getLast? ≠ some '\n'

/-- What is left of a text without the line feeds at its ends is the prompt in it. -/
theorem isPromptOf_trimLineFeeds (text : String) : IsPromptOf (trimLineFeeds text) text := by
  obtain ⟨front, back, htext, hfront, hback⟩ := exists_dropEnds (· == '\n') text.toList
  rw [trimLineFeeds]
  refine ⟨⟨front, back, ?_, fun c hc => beq_iff_eq.mp (hfront c hc),
    fun c hc => beq_iff_eq.mp (hback c hc)⟩, fun h => ?_, fun h => ?_⟩
  · rwa [String.toList_ofList]
  · rw [String.toList_ofList] at h
    simpa using head?_dropEnds _ _ _ h
  · rw [String.toList_ofList] at h
    simpa using getLast?_dropTail _ _ _ h

/-! ### The script -/

/-- The script, with the delimiter at both places. -/
theorem script_eq (markdown : String) :
    script markdown = "mkdir -p \"$(dirname \"$GH_AW_PROMPT\")\"\ncat << '" ++
      delimiter (trimLineFeeds markdown) ++ "' > \"$GH_AW_PROMPT\"\n" ++
      trimLineFeeds markdown ++ "\n" ++ delimiter (trimLineFeeds markdown) := rfl

/-- The script has two commands, the prompt, and the delimiter. -/
theorem script_eq_intercalate (markdown : String) :
    script markdown = "\n".intercalate ["mkdir -p \"$(dirname \"$GH_AW_PROMPT\")\"",
      "cat << '" ++ delimiter (trimLineFeeds markdown) ++ "' > \"$GH_AW_PROMPT\"",
      trimLineFeeds markdown, delimiter (trimLineFeeds markdown)] := by
  have hfirst : "mkdir -p \"$(dirname \"$GH_AW_PROMPT\")\"\ncat << '" =
      "mkdir -p \"$(dirname \"$GH_AW_PROMPT\")\"" ++ "\n" ++ "cat << '" := rfl
  have hsecond : "' > \"$GH_AW_PROMPT\"\n" = "' > \"$GH_AW_PROMPT\"" ++ "\n" := rfl
  rw [script_eq, hfirst, hsecond]
  simp only [String.intercalate_cons_cons, String.intercalate_singleton, String.append_assoc]

/-- The same for texts that a line feed joins. -/
theorem scriptLines_newline (a b : String) :
    scriptLines (a ++ "\n" ++ b).toList = scriptLines a.toList ++ scriptLines b.toList := by
  have hnewline : "\n".toList = ['\n'] := rfl
  rw [← scriptLines_append, String.toList_append, String.toList_append, hnewline,
    List.append_assoc, List.singleton_append]

/-- The lines of the script are two commands, the prompt and the delimiter. -/
theorem scriptLines_script (markdown : String) :
    scriptLines (script markdown).toList =
      "mkdir -p \"$(dirname \"$GH_AW_PROMPT\")\"".toList ::
      ("cat << '" ++ delimiter (trimLineFeeds markdown) ++ "' > \"$GH_AW_PROMPT\"").toList ::
      (scriptLines (trimLineFeeds markdown).toList ++
        [(delimiter (trimLineFeeds markdown)).toList]) := by
  obtain ⟨n, hn⟩ := delimiter_eq_candidate (trimLineFeeds markdown)
  have hmark : '\n' ∉ (candidate n).toList := notMem_candidate (by decide) (by decide) n
  have hcommand : '\n' ∉ ("cat << '" ++ candidate n ++ "' > \"$GH_AW_PROMPT\"").toList := by
    rw [String.toList_append, String.toList_append, List.mem_append, List.mem_append, not_or,
      not_or]
    exact ⟨⟨by decide, hmark⟩, by decide⟩
  rw [script_eq_intercalate, hn, String.intercalate_cons_cons, String.intercalate_cons_cons,
    String.intercalate_cons_cons, String.intercalate_singleton, scriptLines_newline,
    scriptLines_newline, scriptLines_newline, scriptLines_of_notMem hmark,
    scriptLines_of_notMem hcommand, scriptLines_of_notMem (by decide), List.singleton_append,
    List.singleton_append]

/-- **The prompt reaches its file**: the search for a delimiter ends, with at most one test more
than the text has lines; no line is the delimiter, not even without white space at its ends; and the
shell that runs the script takes exactly the lines of the prompt for the document, with no command
behind it. The prompt is what stands between the line feeds at the ends of the text. -/
theorem delimits_prompt (text : String) :
    (∃ tests ≤ (Text.Str.lines text).length + 1, ∃ found,
      Tries (trimmedLines text) 0 tests found ∧ delimiter text = candidate found) ∧
    (∀ line ∈ Text.Str.lines text,
      line ≠ delimiter text ∧ Text.Str.trim line ≠ delimiter text) ∧
    IsPromptOf (trimLineFeeds text) text ∧
    ∃ lines, scriptLines (script text).toList =
        "mkdir -p \"$(dirname \"$GH_AW_PROMPT\")\"".toList ::
        ("cat << '" ++ delimiter (trimLineFeeds text) ++ "' > \"$GH_AW_PROMPT\"").toList ::
        lines ∧
      document? (delimiter (trimLineFeeds text)).toList lines =
        some (scriptLines (trimLineFeeds text).toList, []) := by
  refine ⟨?_, fun line hline => ?_, isPromptOf_trimLineFeeds text, _, scriptLines_script text,
    document?_append (delimiter_notMem_scriptLines _) []⟩
  · obtain ⟨tests, htests, hrun⟩ := exists_tries (trimmedLines text) 0
    refine ⟨tests, ?_, _, hrun, rfl⟩
    simpa [untried, trimmedLines, Text.Str.lines] using htests
  · obtain ⟨cs, hcs, rfl⟩ := List.mem_map.mp hline
    have htrim : String.ofList (trim cs) ≠ delimiter text := fun heq =>
      delimiter_notMem text (List.mem_map.mpr ⟨cs, hcs, heq⟩)
    refine ⟨fun heq => htrim ?_, by simpa [Text.Str.trim] using htrim⟩
    have hcs : cs = (delimiter text).toList := by rw [← heq, String.toList_ofList]
    rw [hcs, delimiter, trim_candidate, String.ofList_toList]

end AgentPipeline.Prompt
