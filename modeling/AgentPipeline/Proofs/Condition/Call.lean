import AgentPipeline.Proofs.Condition.Clause

/-!
# Reading calls

The arguments of a call stand in parentheses, where no literal ends. A stretch of text is
**nested** if it leaves as much open as it finds open, wherever it stands in an argument list:
inert characters and quoted strings are, and so are several of them side by side. A name with a
nested stretch in parentheses behind it is solid (`solid_call`), and so a call that is generated
means the same when it is read back.
-/

namespace AgentPipeline

namespace Token

/-- A stretch inside of an argument list that leaves as much open as it finds open. -/
def Nested (cs : List Char) : Prop :=
  ∀ (s : Cursor) (next : Option Char), s.quotes = .outside → 0 < s.depth →
    s.Covers cs next ∧ (s.afterAll cs).quotes = .outside ∧ (s.afterAll cs).depth = s.depth

/-- No text is nested. -/
theorem nested_nil : Nested [] := fun _ _ hquotes _ => ⟨trivial, hquotes, rfl⟩

/-- Two nested stretches side by side are nested. -/
theorem Nested.append {a b : List Char} (ha : Nested a) (hb : Nested b) : Nested (a ++ b) := by
  intro s next hquotes hdepth
  obtain ⟨hcovers, hquotes₁, hdepth₁⟩ := ha s (b.head?.or next) hquotes hdepth
  obtain ⟨hcovers', hquotes₂, hdepth₂⟩ := hb _ next hquotes₁ (hdepth₁ ▸ hdepth)
  rw [Cursor.covers_append, Cursor.afterAll_append]
  exact ⟨⟨hcovers, hcovers'⟩, hquotes₂, hdepth₂.trans hdepth₁⟩

/-- In an argument list a literal does not end. -/
theorem not_ends_of_depth {s : Cursor} {c : Char} {next : Option Char} (h : 0 < s.depth) :
    ¬s.Ends c next :=
  fun hends => Nat.ne_of_gt h hends.1.2

/-- Inert characters make a nested stretch. -/
theorem nested_of_inert {cs : List Char} (h : ∀ c ∈ cs, Inert c) : Nested cs := by
  intro s next hquotes hdepth
  induction cs generalizing s with
  | nil => exact ⟨trivial, hquotes, rfl⟩
  | cons c cs ih =>
      rw [List.forall_mem_cons] at h
      have hinert := h.1
      simp only [Inert, List.mem_cons, List.not_mem_nil, not_or] at hinert
      have hquotes₁ : (s.after c).quotes = .outside := by
        simp [Cursor.after, hquotes, Quotes.next, Quotes.opens, hinert]
      have hdepth₁ : (s.after c).depth = s.depth := by
        simp [Cursor.after, hinert]
      obtain ⟨hcovers, hquotes₂, hdepth₂⟩ := ih h.2 _ hquotes₁ (hdepth₁ ▸ hdepth)
      exact ⟨⟨not_ends_of_depth hdepth, hcovers⟩, hquotes₂, hdepth₂.trans hdepth₁⟩

/-- The quote that closes a string opens and closes no argument list. -/
theorem after_quote {s : Cursor} (h : s.quotes = .inside '\'') :
    (s.after '\'').quotes = .outside ∧ (s.after '\'').depth = s.depth := by
  simp [Cursor.after, h, Quotes.next]

/-- A quoted string is nested. -/
theorem nested_quoted {cs : List Char} (h : Protected '\'' cs) :
    Nested ('\'' :: cs ++ ['\'']) := by
  intro s next hquotes hdepth
  have hopened : (s.after '\'').quotes = .inside '\'' := by
    simp [Cursor.after, hquotes, Quotes.next, Quotes.opens]
  have hdepth₁ : (s.after '\'').depth = s.depth := by simp [Cursor.after]
  obtain ⟨hcovers, hinside, hdepth₂⟩ : (s.after '\'').Covers cs (some '\'') ∧ _ :=
    covers_inside hopened h
  have hlast : 0 < ((s.after '\'').afterAll cs).depth := by omega
  rw [Cursor.covers_append, Cursor.afterAll_append, Cursor.afterAll_cons, Cursor.afterAll_cons,
    Cursor.afterAll_nil]
  exact ⟨⟨⟨not_ends_of_depth hdepth, hcovers⟩, not_ends_of_depth hlast, trivial⟩,
    (after_quote hinside).1, (after_quote hinside).2.trans (hdepth₂.trans hdepth₁)⟩

/-- A path is nested. -/
theorem IsPath.nested {path : String} (h : IsPath path) :
    Nested (Condition.property path).render.toList := by
  rw [Condition.render]
  exact nested_of_inert fun c hc => (h c hc).1

/-- A string that can be quoted is nested with its quotes. -/
theorem IsQuotable.nested {text : String} (h : IsQuotable text) :
    Nested (Condition.string text).render.toList := by
  have htext : (Condition.string text).render.toList = '\'' :: text.toList ++ ['\''] := by
    simp [Condition.render]
  rw [htext]
  exact nested_quoted (protected_of_forall h)

/-- Nested arguments with commas between them. -/
theorem nested_arguments {args : List Condition} (h : ∀ arg ∈ args, Nested arg.render.toList) :
    Nested (", ".intercalate (Condition.renderArguments args)).toList := by
  have hcomma : Nested (", ".toList) := nested_of_inert (by simp [Inert])
  induction args with
  | nil => exact nested_nil
  | cons arg args ih =>
      rw [List.forall_mem_cons] at h
      have hargs := ih h.2
      cases args with
      | nil => simpa [Condition.renderArguments] using h.1
      | cons arg' args =>
          rw [Condition.renderArguments] at hargs ⊢
          rw [Condition.renderArguments, String.intercalate_cons_cons, String.toList_append,
            String.toList_append]
          exact (h.1.append hcomma).append hargs

/-! ### Calls -/

/-- The last character of a stretch is the one behind which the cursor stands. -/
theorem previous_afterAll (s : Cursor) (cs : List Char) :
    (s.afterAll cs).previous = cs.getLast?.or s.previous := by
  induction cs generalizing s with
  | nil => rfl
  | cons c cs ih => rw [Cursor.afterAll_cons, ih, List.getLast?_cons]; cases cs.getLast? <;> rfl

/-- An opening parenthesis outside of quotes opens an argument list. -/
theorem after_openParen {s : Cursor} (h : s.quotes = .outside) :
    (s.after '(').quotes = .outside ∧ (s.after '(').depth = s.depth + 1 := by
  simp [Cursor.after, h, Quotes.next, Quotes.opens]

/-- A closing parenthesis outside of quotes closes one. -/
theorem after_closeParen {s : Cursor} (h : s.quotes = .outside) :
    (s.after ')').quotes = .outside ∧ (s.after ')').depth = s.depth - 1 := by
  simp [Cursor.after, h, Quotes.next, Quotes.opens]

/-- A name with its arguments in parentheses. -/
theorem solid_call {f args : List Char} (hf : ∀ c ∈ f, Inert c)
    (hlast : precedesCall f.getLast? = true) (hargs : Nested args) :
    Solid (f ++ '(' :: (args ++ [')'])) := by
  intro s next hs
  obtain ⟨hname, hclosed⟩ := solid_of_inert hf s (some '(') hs
  have hcall : precedesCall (s.afterAll f).previous = true := by
    rw [previous_afterAll]
    cases hlast' : f.getLast? with
    | none => simp [hlast', precedesCall] at hlast
    | some c => rwa [hlast'] at hlast
  obtain ⟨hquotes, hdepth⟩ := after_openParen hclosed.1
  obtain ⟨hcovers, hquotes₁, hdepth₁⟩ := hargs _ (some ')') hquotes (by omega)
  obtain ⟨hquotes₂, hdepth₂⟩ := after_closeParen hquotes₁
  have hopen : ¬(s.afterAll f).Ends '(' ((args ++ [')']).head?.or next) :=
    fun hends => hends.2.1 ⟨rfl, hcall⟩
  have hclose : ¬(((s.afterAll f).after '(').afterAll args).Ends ')' next :=
    not_ends_of_depth (by omega)
  rw [Cursor.covers_append, Cursor.afterAll_append, Cursor.afterAll_cons,
    Cursor.afterAll_append, Cursor.afterAll_cons, Cursor.afterAll_nil]
  refine ⟨⟨hname, hopen, ?_⟩, hquotes₂, ?_⟩
  · rw [Cursor.covers_append]
    exact ⟨hcovers, hclose, trivial⟩
  · rw [hdepth₂, hdepth₁, hdepth, hclosed.2]

/-- The text of a call is an operand if its arguments are nested. -/
theorem isOperand_call {f : String} {args : List Condition} (hf : IsPath f)
    (hlast : precedesCall f.toList.getLast? = true)
    (hargs : ∀ arg ∈ args, Nested arg.render.toList) :
    IsOperand (Condition.call f args).render.toList := by
  have htext : (Condition.call f args).render.toList =
      f.toList ++ '(' :: ((", ".intercalate (Condition.renderArguments args)).toList ++ [')']) := by
    simp [Condition.render]
  obtain ⟨c, hc⟩ : ∃ c, f.toList.head? = some c := by
    cases hf : f.toList with
    | nil => simp [hf, precedesCall] at hlast
    | cons c cs => exact ⟨c, rfl⟩
  have hhead : (Condition.call f args).render.toList.head? = some c := by simp [htext, hc]
  have hend : (Condition.call f args).render.toList.getLast? = some ')' := by
    rw [htext, ← List.cons_append, ← List.append_assoc, List.getLast?_concat]
  exact {
    ne_nil := by simp [htext]
    trimmed := Text.trimmed_of_ends hhead hend (hf c (List.mem_of_mem_head? hc)).2 (by decide)
    solid := by
      rw [htext]
      exact solid_call (fun c hc => (hf c hc).1) hlast (nested_arguments hargs) }

end Token

namespace Clause

open Condition (Readable)
open Token (IsPath IsQuotable)

/-- The clause on the types of the outputs can be read back. -/
theorem readable_outputTypePresent {type : String} (h : IsQuotable type) :
    Readable (outputTypePresent type) := by
  have houtput : IsPath ("needs." ++ Names.agentJob ++ ".outputs.output_types") := by
    decide
  refine .atom trivial (Token.isOperand_call (by decide) (by decide +kernel) ?_).isLiteral
  rw [List.forall_mem_cons, List.forall_mem_cons]
  exact ⟨houtput.nested, h.nested, nofun⟩

/-- The clause on the end of the agent can be read back. -/
theorem readable_agentCompleted : Readable agentCompleted := by
  have hcall : Token.IsOperand (Condition.call "cancelled" []).render.toList :=
    Token.isOperand_call (by decide) (by decide +kernel) nofun
  have hcancelled : Readable (.call "cancelled" []) := .atom trivial hcall.isLiteral
  have hskipped : Readable (jobResultIsNot Names.agentJob "skipped") :=
    readable_compare_string .ne (by decide) (by decide) (by decide +kernel)
  exact hcancelled.not.and hskipped

/-- The gate of a handler can be read back. -/
theorem readable_safeOutputType {type : String} (h : IsQuotable type) :
    Readable (safeOutputType type) :=
  readable_agentCompleted.and (readable_outputTypePresent h)

end Clause

end AgentPipeline
