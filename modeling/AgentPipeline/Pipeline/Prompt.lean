import AgentPipeline.Names
import AgentPipeline.Number.Decimal
import AgentPipeline.Text.Blank
import AgentPipeline.Text.Line

/-!
# The prompt

The prompt is written to a file by a script that holds it between two delimiters, as a
document of the shell that is taken as it is. The second delimiter must be a line that the
prompt does not have: the first of a sequence of candidates that is no line of the prompt,
white space at the ends of lines aside. The search tries one candidate after the other. It
ends because the candidates differ: each one that is rejected is a line of the prompt that
no candidate before it was, so there are fewer and fewer lines left to reject one.

## Main definitions

* `Prompt.delimiter`: the delimiter for a prompt.
* `Prompt.script`: the script that writes a prompt.
-/

namespace AgentPipeline.Prompt

/-- The candidates for the delimiter, by their number. -/
def candidate : Nat → String
  | 0 => "GH_AW_PROMPT_EOF"
  | n + 1 => "GH_AW_PROMPT_EOF_" ++ toString (n + 1)

theorem candidate_zero_ne (n : Nat) : candidate 0 ≠ candidate (n + 1) := by
  intro h
  have hlonger : "GH_AW_PROMPT_EOF".length < "GH_AW_PROMPT_EOF_".length := by decide
  have hlength : "GH_AW_PROMPT_EOF".length =
      ("GH_AW_PROMPT_EOF_" ++ toString (n + 1)).length := congrArg String.length h
  rw [String.length_append] at hlength
  omega

/-- No candidate comes twice. -/
theorem candidate_inj {m n : Nat} (h : candidate m = candidate n) : m = n := by
  cases m with
  | zero =>
      cases n with
      | zero => rfl
      | succ n => exact absurd h (candidate_zero_ne n)
  | succ m =>
      cases n with
      | zero => exact absurd h.symm (candidate_zero_ne m)
      | succ n => exact toString_inj (String.append_right_inj _ |>.mp h)

/-- The lines that are none of the first `n` candidates. -/
def untried (lines : List String) : Nat → List String
  | 0 => lines
  | n + 1 => (untried lines n).filter (· != candidate n)

theorem mem_untried {lines : List String} {line : String} (h : line ∈ lines) {n : Nat}
    (hne : ∀ m < n, line ≠ candidate m) : line ∈ untried lines n := by
  induction n with
  | zero => exact h
  | succ n ih =>
      have hline : line ∈ untried lines n := ih fun m hm => hne m (Nat.lt_succ_of_lt hm)
      exact List.mem_filter.mpr ⟨hline, by simpa using hne n n.lt_succ_self⟩

/-- A candidate that is a line leaves fewer lines for those behind it. -/
theorem length_untried_lt {lines : List String} {n : Nat} (h : candidate n ∈ lines) :
    (untried lines (n + 1)).length < (untried lines n).length := by
  have hmem : candidate n ∈ untried lines n :=
    mem_untried h fun m hm heq => Nat.ne_of_gt hm (candidate_inj heq)
  exact List.length_filter_lt_length_iff_exists.mpr ⟨candidate n, hmem, by simp⟩

/-- The number of the first candidate from the `n`-th on that is none of the lines. -/
def search (lines : List String) (n : Nat) : Nat :=
  if candidate n ∈ lines then search lines (n + 1) else n
termination_by (untried lines n).length
decreasing_by exact length_untried_lt ‹_›

/-- The lines of a prompt without white space at their ends. -/
def trimmedLines (body : String) : List String :=
  (Text.lines body.toList).map fun line => String.ofList (Text.trim line)

/-- The first candidate that is no line of a prompt. -/
def delimiter (body : String) : String :=
  candidate (search (trimmedLines body) 0)

/-- A text without line feeds at its ends. -/
def trimLineFeeds (text : String) : String :=
  String.ofList (Text.dropTail (· == '\n') (text.toList.dropWhile (· == '\n')))

/-- The script that writes a prompt. -/
def script (markdown : String) : String :=
  let body := trimLineFeeds markdown
  let mark := delimiter body
  "mkdir -p \"$(dirname \"$GH_AW_PROMPT\")\"\ncat << '" ++ mark ++
    "' > \"$GH_AW_PROMPT\"\n" ++ body ++ "\n" ++ mark

end AgentPipeline.Prompt
