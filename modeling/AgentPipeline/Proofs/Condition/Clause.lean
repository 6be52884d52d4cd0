import AgentPipeline.Condition.Clause
import AgentPipeline.Proofs.Condition.Meaning

/-!
# Reading generated clauses

A generated clause compares a path or a quoted string with another one. Its text has to be
a literal text, so that the clause means the same when it is read back.

A stretch of text is **solid** if it leaves nothing open and a literal in which nothing is
open does not end inside of it, whatever stands around the stretch. The text of a path is
solid, since its characters are **inert**; so are a quoted string and a comparison operator,
in spite of the `!` of `!=`. Solid stretches can be put side by side (`Solid.append`), and a
solid text that is trimmed and not empty is a literal text (`IsOperand.isLiteral`).
-/

namespace AgentPipeline

namespace Token

/-! ### Solid stretches -/

/-- A stretch inside of which no literal ends and behind which nothing is open, if nothing
is open in front of it. -/
def Solid (cs : List Char) : Prop :=
  ∀ (s : Cursor) (next : Option Char), s.Closed → s.Covers cs next ∧ (s.afterAll cs).Closed

/-- Two solid stretches side by side are solid. -/
theorem Solid.append {a b : List Char} (ha : Solid a) (hb : Solid b) : Solid (a ++ b) := by
  intro s next h
  obtain ⟨hcovers, hclosed⟩ := ha s (b.head?.or next) h
  obtain ⟨hcovers', hclosed'⟩ := hb _ next hclosed
  rw [Cursor.covers_append, Cursor.afterAll_append]
  exact ⟨⟨hcovers, hcovers'⟩, hclosed'⟩

/-- A character that starts no symbol and opens and closes nothing. -/
def Inert (c : Char) : Prop := c ∉ ['(', ')', '&', '|', '!', '\'', '"']

instance (c : Char) : Decidable (Inert c) := inferInstanceAs (Decidable (_ ∉ _))

/-- An inert character starts no symbol. -/
theorem Inert.symbolAt_eq_none {c : Char} (h : Inert c) (next : Option Char) :
    symbolAt c next = none := by
  simp only [Inert, List.mem_cons, List.not_mem_nil, not_or] at h
  simp [symbolAt, h]

/-- An inert character opens nothing. -/
theorem Inert.after_closed {c : Char} (h : Inert c) {s : Cursor} (hs : s.Closed) :
    (s.after c).Closed := by
  simp only [Inert, List.mem_cons, List.not_mem_nil, not_or] at h
  simp [Cursor.Closed, Cursor.after, hs.1, hs.2, h, Quotes.next, Quotes.opens]

/-- Inert characters make a solid stretch. -/
theorem solid_of_inert {cs : List Char} (h : ∀ c ∈ cs, Inert c) : Solid cs := by
  intro s next hs
  induction cs generalizing s with
  | nil => exact ⟨trivial, hs⟩
  | cons c cs ih =>
      rw [List.forall_mem_cons] at h
      obtain ⟨hcovers, hclosed⟩ := ih h.2 _ (h.1.after_closed hs)
      refine ⟨⟨?_, hcovers⟩, hclosed⟩
      rintro ⟨-, -, hsymbol⟩
      simp [h.1.symbolAt_eq_none] at hsymbol

/-- A text that quotes of this kind can be put around: each of them and each backslash in it has a
backslash in front that takes it out of consideration. -/
inductive Protected (q : Char) : List Char → Prop
  | nil : Protected q []
  | plain {c : Char} {cs : List Char} : c ≠ q → c ≠ '\\' → Protected q cs → Protected q (c :: cs)
  | escaped {c : Char} {cs : List Char} : Protected q cs → Protected q ('\\' :: c :: cs)

/-- A text with neither the quote nor a backslash can be quoted. -/
theorem protected_of_forall {q : Char} {cs : List Char} (h : ∀ c ∈ cs, c ≠ q ∧ c ≠ '\\') :
    Protected q cs := by
  induction cs with
  | nil => exact .nil
  | cons c cs ih =>
      rw [List.forall_mem_cons] at h
      exact .plain h.1.1 h.1.2 (ih h.2)

/-- Inside of quotes a literal does not end, and only the closing quote and the backslash
change the state. -/
theorem covers_inside {s : Cursor} {q : Char} {cs : List Char} {next : Option Char}
    (hs : s.quotes = .inside q) (h : Protected q cs) :
    s.Covers cs next ∧ (s.afterAll cs).quotes = .inside q ∧
      (s.afterAll cs).depth = s.depth := by
  have hends {t : Cursor} (ht : t.quotes ≠ .outside) (c : Char) (next : Option Char) :
      ¬t.Ends c next := fun hends => ht hends.1.1
  induction h generalizing s with
  | nil => exact ⟨trivial, hs, rfl⟩
  | @plain c cs hq hbackslash _ ih =>
      have hquotes : (s.after c).quotes = .inside q := by
        simp [Cursor.after, hs, Quotes.next, hq, hbackslash]
      have hdepth : (s.after c).depth = s.depth := by simp [Cursor.after, hs]
      obtain ⟨hcovers, hinside, hd⟩ := ih hquotes
      exact ⟨⟨hends (by simp [hs]) _ _, hcovers⟩, hinside, hd.trans hdepth⟩
  | @escaped c cs _ ih =>
      have hescaped : (s.after '\\').quotes = .escaped q := by
        simp [Cursor.after, hs, Quotes.next]
      have hquotes : ((s.after '\\').after c).quotes = .inside q := by
        simp [Cursor.after, hs, Quotes.next]
      have hdepth : ((s.after '\\').after c).depth = s.depth := by
        simp [Cursor.after, hs, Quotes.next]
      obtain ⟨hcovers, hinside, hd⟩ := ih hquotes
      exact ⟨⟨hends (by simp [hs]) _ _, hends (by simp [hescaped]) _ _, hcovers⟩, hinside,
        hd.trans hdepth⟩

/-- The closing quote closes the quotes. -/
theorem closed_after_quote {s : Cursor} {q : Char} (hquotes : s.quotes = .inside q)
    (hdepth : s.depth = 0) (hq : q ≠ '\\') : (s.after q).Closed := by
  simp [Cursor.Closed, Cursor.after, hquotes, hdepth, Quotes.next, hq]

/-- A quoted string is solid. -/
theorem solid_quoted {cs : List Char} (h : Protected '\'' cs) :
    Solid ('\'' :: cs ++ ['\'']) := by
  intro s next hs
  have hquotes : (s.after '\'').quotes = .inside '\'' := by
    simp [Cursor.after, hs.1, Quotes.next, Quotes.opens]
  have hdepth : (s.after '\'').depth = 0 := by simp [Cursor.after, hs.2]
  have hends (t : Cursor) (next : Option Char) : ¬t.Ends '\'' next := by
    rintro ⟨-, -, hsymbol⟩
    simp [symbolAt] at hsymbol
  obtain ⟨hcovers, hq, hd⟩ : (s.after '\'').Covers cs (some '\'') ∧ _ :=
    covers_inside hquotes h
  rw [Cursor.covers_append, Cursor.afterAll_append]
  exact ⟨⟨⟨hends _ _, hcovers⟩, hends _ _, trivial⟩,
    closed_after_quote hq (hd.trans hdepth) (by decide)⟩

/-- The `!` of `!=` starts no symbol, since `=` stands behind it. -/
theorem solid_ne : Solid ['!', '='] := by
  intro s next hs
  have hclosed : (s.after '!').Closed := by
    simp [Cursor.Closed, Cursor.after, hs.1, hs.2, Quotes.next, Quotes.opens]
  have hequals : Solid ['='] := solid_of_inert (by simp [Inert])
  obtain ⟨hcovers, hclosed'⟩ := hequals _ next hclosed
  refine ⟨⟨?_, hcovers⟩, hclosed'⟩
  rintro ⟨-, -, hsymbol⟩
  simp [symbolAt] at hsymbol

/-- A comparison operator with its spaces is solid. -/
theorem solid_comparison (op : Comparison) : Solid (" " ++ op.symbol ++ " ").toList := by
  have hspace : Solid [' '] := solid_of_inert (by simp [Inert])
  have hsymbol : Solid op.symbol.toList := by
    cases op with
    | ne => simpa [Comparison.symbol] using solid_ne
    | eq | gt | ge | lt | le => exact solid_of_inert (by simp [Comparison.symbol, Inert])
  simpa using (hspace.append hsymbol).append hspace

/-! ### Operands -/

/-- A solid text that can stand on either side of a comparison. -/
structure IsOperand (cs : List Char) : Prop where
  ne_nil : cs ≠ []
  trimmed : Text.Trimmed cs
  solid : Solid cs

/-- An operand is a literal text. -/
theorem IsOperand.isLiteral {cs : List Char} (h : IsOperand cs) : IsLiteral cs := by
  obtain ⟨hcovers, hclosed⟩ := h.solid .start none ⟨rfl, rfl⟩
  exact ⟨h.ne_nil, h.trimmed, hcovers, hclosed⟩

/-- Two operands with something solid between them. -/
theorem IsOperand.append {a mid b : List Char} (ha : IsOperand a) (hmid : Solid mid)
    (hb : IsOperand b) : IsOperand (a ++ mid ++ b) where
  ne_nil := by simp [ha.ne_nil]
  trimmed := by
    constructor
    · rw [List.append_assoc, List.head?_append_of_ne_nil _ ha.ne_nil]
      exact ha.trimmed.1
    · rw [List.getLast?_append_of_ne_nil _ hb.ne_nil]
      exact hb.trimmed.2
  solid := (ha.solid.append hmid).append hb.solid

/-- A name or a path: a text of inert characters without white space. -/
def IsPath (text : String) : Prop :=
  ∀ c ∈ text.toList, Inert c ∧ Text.isBlank c = false

instance (text : String) : Decidable (IsPath text) := List.decidableBAll _ _

/-- Two texts side by side are a path if both are. -/
theorem isPath_append {a b : String} : IsPath (a ++ b) ↔ IsPath a ∧ IsPath b := by
  simp only [IsPath, String.toList_append, List.forall_mem_append]

/-- A path that is not empty can stand beside a comparison. -/
theorem IsPath.isOperand {path : String} (h : IsPath path) (hne : path ≠ "") :
    IsOperand (Condition.property path).render.toList := by
  rw [Condition.render]
  exact {
    ne_nil := by simpa using hne
    trimmed := ⟨fun c hc => (h c (List.mem_of_mem_head? hc)).2,
      fun c hc => (h c (List.mem_of_mem_getLast? hc)).2⟩
    solid := solid_of_inert fun c hc => (h c hc).1 }

/-- A text that single quotes can be put around. -/
def IsQuotable (text : String) : Prop :=
  ∀ c ∈ text.toList, c ≠ '\'' ∧ c ≠ '\\'

instance (text : String) : Decidable (IsQuotable text) := List.decidableBAll _ _

/-- A quoted string can stand beside a comparison. -/
theorem IsQuotable.isOperand {text : String} (h : IsQuotable text) :
    IsOperand (Condition.string text).render.toList := by
  have htext : (Condition.string text).render.toList = '\'' :: text.toList ++ ['\''] := by
    simp [Condition.render]
  have hlast : ('\'' :: text.toList ++ ['\'']).getLast? = some '\'' := by
    simp [List.getLast?_cons]
  rw [htext]
  exact ⟨by simp, Text.trimmed_of_ends rfl hlast (by decide) (by decide),
    solid_quoted (protected_of_forall h)⟩

end Token

namespace Condition

open Token (IsOperand)

/-- A comparison of operands is read as one literal. -/
theorem Readable.compare {l r : Condition} (op : Comparison)
    (hl : IsOperand l.render.toList) (hr : IsOperand r.render.toList) :
    Readable (.compare l op r) := by
  have htext : (Condition.compare l op r).render.toList =
      l.render.toList ++ (" " ++ op.symbol ++ " ").toList ++ r.render.toList := by
    simp [render]
  refine .atom trivial ?_
  rw [htext]
  exact (hl.append (Token.solid_comparison op) hr).isLiteral

end Condition

namespace Clause

open Condition (Readable)
open Token (IsPath IsQuotable isPath_append)

/-- A path compared with a quoted string. -/
theorem readable_compare_string {path value : String} (op : Comparison) (hpath : IsPath path)
    (hne : path ≠ "") (hvalue : IsQuotable value) :
    Readable (.compare (.property path) op (.string value)) :=
  .compare op (hpath.isOperand hne) hvalue.isOperand

/-- The clause on the name of the event can be read back. -/
theorem readable_eventIsNot {event : String} (h : IsQuotable event) :
    Readable (eventIsNot event) :=
  readable_compare_string .ne (by decide) (by decide) h

/-- The text of the clause names the event. -/
theorem render_eventIsNot_inj {a b : String} :
    (eventIsNot a).render = (eventIsNot b).render ↔ a = b := by
  simp [eventIsNot, differs, Condition.render, ← String.toList_inj]

/-- The clause on the result of a job can be read back. -/
theorem readable_jobResultIs {job result : String} (hjob : IsPath job)
    (hresult : IsQuotable result) : Readable (jobResultIs job result) := by
  refine readable_compare_string .eq ?_ (by simp) hresult
  rw [isPath_append, isPath_append]
  exact ⟨⟨by decide, hjob⟩, by decide +kernel⟩

/-- The path of an output of a job or a step. -/
theorem isPath_output {owners owner output : String} (howners : IsPath owners)
    (howner : IsPath owner) (houtput : IsPath output) :
    IsPath (owners ++ owner ++ ".outputs." ++ output) := by
  rw [isPath_append, isPath_append, isPath_append]
  exact ⟨⟨⟨howners, howner⟩, by decide⟩, houtput⟩

/-- The clause on an output of a job can be read back. -/
theorem readable_jobOutputIs {job output value : String} (hjob : IsPath job)
    (houtput : IsPath output) (hvalue : IsQuotable value) :
    Readable (jobOutputIs job output value) :=
  readable_compare_string .eq (isPath_output (by decide) hjob houtput) (by simp) hvalue

/-- The clause on an output of a step can be read back. -/
theorem readable_stepOutputIs {step output value : String} (hstep : IsPath step)
    (houtput : IsPath output) (hvalue : IsQuotable value) :
    Readable (stepOutputIs step output value) :=
  readable_compare_string .eq (isPath_output (by decide) hstep houtput) (by simp) hvalue

/-- The clause on the repository of a workflow run can be read back. -/
theorem readable_workflowRunFromHere : Readable workflowRunFromHere := by
  have hrepository : IsPath "github.event.workflow_run.repository.id" := by decide
  have hid : IsPath "github.repository_id" := by decide
  have hfork : IsPath "github.event.workflow_run.repository.fork" := by decide
  have hevent : Readable (eventIsNot "workflow_run") :=
    readable_eventIsNot (by decide)
  refine hevent.or (.and ?_ (.not ?_))
  · exact .compare .eq (hrepository.isOperand (by decide)) (hid.isOperand (by decide))
  · exact .atom trivial (hfork.isOperand (by decide)).isLiteral

end Clause

end AgentPipeline
