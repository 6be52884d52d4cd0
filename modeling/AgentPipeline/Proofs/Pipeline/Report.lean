import AgentPipeline.Proofs.Condition.Call
import AgentPipeline.Proofs.Pipeline.Dispatch
import AgentPipeline.Proofs.Text.Infix
import Mathlib.Data.List.Infix

/-!
# What the agent reported

The agent leaves the types of the outputs that it asked for as one text, separated by commas,
and the condition of a step searches this text for the type of its kind. In a run that was not
cancelled and in which the agent was not skipped (`Observed`) the condition is true exactly if
the type stands inside of a reported one (`evaluates_safeOutputType_iff`).

Because one type may stand inside of another one, a step can run without having been asked for.
Among the steps that belong to a single kind this is so for `create_pull_request`, which is
found inside of `create_pull_request_review_comment`, and for no other
(`evaluates_ownStep_of_build`).
-/

namespace AgentPipeline.Dispatch

open Condition (Evaluates)

variable {ctx : Context} {s : SafeOutputs} {kind : OutputKind} {hasActivation : Bool}
  {reported : List OutputKind} {v : String → Bool}

/-! ### Runs -/

/-- The output of the agent job that the conditions search: the reported types. -/
def outputTypes (reported : List OutputKind) : String :=
  ",".intercalate (reported.map (·.outputType))

/-- **A run in which the agent reported some outputs**: it was not cancelled, the agent was not
skipped, and a type is present if it is found in the text of the reported ones. -/
structure Observed (reported : List OutputKind) (v : String → Bool) : Prop where
  not_cancelled : (Condition.call "cancelled" []).eval v = false
  not_skipped : (Clause.jobResultIsNot Names.agentJob "skipped").eval v = true
  present_iff : ∀ kind : OutputKind, (Clause.outputTypePresent kind.outputType).eval v = true ↔
    kind.outputType.toList <:+: (outputTypes reported).toList

/-- A type is found if it stands inside of a reported one, since it has no comma. -/
theorem infix_outputTypes_iff :
    kind.outputType.toList <:+: (outputTypes reported).toList ↔
      ∃ k ∈ reported, k = kind ∨ (kind, k) ∈ OutputKind.shadowed := by
  have hcomma : ∀ c ∈ ",".toList, c ∉ kind.outputType.toList := by
    intro c hc
    obtain rfl : c = ',' := by simpa using hc
    exact OutputKind.notMem_outputType (by decide) (by decide)
  rw [outputTypes, Text.infix_intercalate hcomma (by decide) kind.outputType_ne_nil]
  simp only [List.mem_map, exists_exists_and_eq_and, OutputKind.outputType_infix_iff,
    eq_comm (a := kind)]

theorem isQuotable_outputType (kind : OutputKind) : Token.IsQuotable kind.outputType := by
  intro c hc
  constructor
  · rintro rfl
    exact OutputKind.notMem_outputType (by decide) (by decide) hc
  · rintro rfl
    exact OutputKind.notMem_outputType (by decide) (by decide) hc

/-- **The condition of a kind** is true if its type stands inside of a reported one. -/
theorem evaluates_safeOutputType_iff (h : Observed reported v) (value : Bool) :
    Evaluates v (Clause.safeOutputType kind.outputType).render value ↔
      (value = true ↔ ∃ k ∈ reported, k = kind ∨ (kind, k) ∈ OutputKind.shadowed) := by
  obtain ⟨t, ht, hmeaning⟩ :=
    (Clause.readable_safeOutputType (isQuotable_outputType kind)).exists_parse
  have heval : t.eval v = (Clause.outputTypePresent kind.outputType).eval v := by
    rw [hmeaning, Clause.safeOutputType, Clause.agentCompleted, Condition.eval_and,
      Condition.eval_and, Condition.eval_not, h.not_cancelled, h.not_skipped]
    rfl
  rw [Condition.evaluates_iff ht, heval, ← infix_outputTypes_iff, ← h.present_iff, Bool.eq_iff_iff]
  exact iff_comm

theorem render_outputTypePresent_inj {a b : OutputKind} :
    (Clause.outputTypePresent a.outputType).render =
      (Clause.outputTypePresent b.outputType).render ↔ a = b := by
  rw [← OutputKind.outputType_injective.eq_iff]
  simp [Clause.outputTypePresent, Condition.render, Condition.renderArguments, ← String.toList_inj]

/-- What the runner makes of the clauses of a run. -/
def valuation (reported : List OutputKind) : String → Bool := fun text =>
  text == (Clause.jobResultIsNot Names.agentJob "skipped").render ||
    OutputKind.all.any fun kind =>
      text == (Clause.outputTypePresent kind.outputType).render &&
        decide (kind.outputType.toList <:+: (outputTypes reported).toList)

theorem valuation_eq_true_iff {text : String} :
    valuation reported text = true ↔
      text = (Clause.jobResultIsNot Names.agentJob "skipped").render ∨
      ∃ kind : OutputKind, text = (Clause.outputTypePresent kind.outputType).render ∧
        kind.outputType.toList <:+: (outputTypes reported).toList := by
  simp [valuation, OutputKind.mem_all]

/-- Whatever the agent reports, there is such a run. -/
theorem observed_valuation (reported : List OutputKind) :
    Observed reported (valuation reported) := by
  -- the characters by which the clauses of the kinds differ from the other two
  have hquote (kind : OutputKind) :
      '\'' ∈ (Clause.outputTypePresent kind.outputType).render.toList := by
    simp [Clause.outputTypePresent, Condition.render, Condition.renderArguments]
  have hbracket (kind : OutputKind) :
      '(' ∈ (Clause.outputTypePresent kind.outputType).render.toList := by
    simp [Clause.outputTypePresent, Condition.render]
  refine ⟨?_, ?_, fun kind => ?_⟩
  · rw [Condition.eval, ← Bool.not_eq_true, valuation_eq_true_iff]
    rintro (htext | ⟨kind, htext, -⟩)
    · exact absurd htext (by decide)
    · exact absurd (htext ▸ hquote kind) (by decide)
  · rw [Clause.jobResultIsNot, Clause.differs, Condition.eval, valuation_eq_true_iff]
    exact .inl rfl
  · rw [Clause.outputTypePresent, Condition.eval, ← Clause.outputTypePresent,
      valuation_eq_true_iff]
    constructor
    · rintro (htext | ⟨kind', htext, hinfix⟩)
      · exact absurd (htext ▸ hbracket kind) (by decide)
      · obtain rfl := render_outputTypePresent_inj.mp htext
        exact hinfix
    · exact fun hinfix => .inr ⟨kind, rfl, hinfix⟩

/-! ### Steps of single kinds -/

/-- The kinds that let the step of a kind run. -/
theorem exists_shadowed_iff (hcategory : kind.category = .workingTree) :
    (∃ k ∈ reported, k = kind ∨ (kind, k) ∈ OutputKind.shadowed) ↔
      kind ∈ reported ∨
        kind = .createPullRequest ∧ .createPullRequestReviewComment ∈ reported := by
  have hshadowed (k : OutputKind) : (kind, k) ∈ OutputKind.shadowed ↔
      kind = .createPullRequest ∧ k = .createPullRequestReviewComment := by
    rw [OutputKind.shadowed, List.mem_cons, List.mem_singleton, Prod.mk.injEq, Prod.mk.injEq,
      or_iff_right]
    rintro ⟨rfl, -⟩
    cases hcategory
  simp only [hshadowed, and_or_left, exists_or, exists_eq_right, and_left_comm, exists_and_left]

/-- **The step of a kind runs if its type is found.** If a kind that has a step of its own is
configured, just one step of the job has its identifier. In a run in which the agent reported
some outputs, the condition of this step is true exactly if the kind was reported, or if it is
the creation of pull requests and a review comment was reported. -/
theorem evaluates_ownStep_of_build {o : Option Job} (hs : ctx.workflow.safeOutputs = some s)
    (hhas : s.has kind = true) (hcategory : kind.category = .workingTree)
    (h : build ctx hasActivation = .ok o) (hv : Observed reported v) :
    ∃ job step condition, o = some job ∧
      (∀ step', .generated step' ∈ job.steps ∧ step'.id = some kind.stepId ↔ step' = step) ∧
      step.condition = some condition ∧
      ∀ value, Evaluates v condition value ↔
        (value = true ↔ kind ∈ reported ∨
          kind = .createPullRequest ∧ .createPullRequestReviewComment ∈ reported) := by
  have houtputs : ctx.workflow.outputs = some s :=
    Workflow.outputs_eq_some_iff.mpr ⟨hs, List.ne_nil_of_mem (SafeOutputs.mem_kinds.mpr hhas)⟩
  obtain ⟨job, rfl, -, hsteps⟩ := exists_of_build houtputs h
  refine ⟨job, ownHandler ctx s kind, _, rfl, fun step' => ?_, rfl, fun value => ?_⟩
  · rw [Job.generated_mem_steps hsteps]
    constructor
    · rintro ⟨hmem, hid⟩
      exact ((mem_steps_own hcategory hid).mp hmem).2
    · rintro rfl
      exact ⟨(mem_steps_own hcategory rfl).mpr ⟨hhas, rfl⟩, rfl⟩
  · rw [evaluates_safeOutputType_iff hv, exists_shadowed_iff hcategory]

/-- Settings under which the agent may create pull requests and comment on their lines. -/
def reviewOutputs : SafeOutputs :=
  [OutputKind.createPullRequest, .createPullRequestReviewComment].foldl
    (fun s kind => s.insert kind .default) .empty

/-- A context with these settings, in which a commit is known for every action. -/
def reviewContext : Context :=
  .ofWorkflow { Workflow.named "review" with safeOutputs := some reviewOutputs }
    { referenceTime := 0 } (fun _ _ => some "11bd719") none

/-- A run in which a pull request is asked for. -/
theorem evaluates_ownStep_of_build_review :
    ∃ job step condition, build reviewContext false = .ok (some job) ∧
      .generated step ∈ job.steps ∧ step.id = some OutputKind.createPullRequest.stepId ∧
      step.condition = some condition ∧
      Observed [.createPullRequest] (valuation [.createPullRequest]) ∧
      Evaluates (valuation [.createPullRequest]) condition true := by
  have hv := observed_valuation [.createPullRequest]
  have hhas : reviewOutputs.has .createPullRequest = true := rfl
  obtain ⟨job, hjob⟩ : ∃ job, build reviewContext false = .ok (some job) := ⟨_, rfl⟩
  obtain ⟨_, step, condition, heq, hstep, hcondition, hvalue⟩ :=
    evaluates_ownStep_of_build rfl hhas rfl hjob hv
  obtain rfl := Option.some.inj heq
  obtain ⟨hmem, hid⟩ := (hstep step).mpr rfl
  exact ⟨job, step, condition, hjob, hmem, hid, hcondition, hv,
    (hvalue true).mpr (iff_of_true rfl (.inl List.mem_cons_self))⟩

/-- **A step that runs without having been asked for**: only a review comment is reported, and
the step that creates a pull request runs. -/
theorem exists_evaluates_notMem_reported :
    ∃ job step condition, build reviewContext false = .ok (some job) ∧
      .generated step ∈ job.steps ∧ step.id = some OutputKind.createPullRequest.stepId ∧
      step.condition = some condition ∧
      Observed [.createPullRequestReviewComment] (valuation [.createPullRequestReviewComment]) ∧
      Evaluates (valuation [.createPullRequestReviewComment]) condition true ∧
      .createPullRequest ∉ [OutputKind.createPullRequestReviewComment] := by
  have hv := observed_valuation [.createPullRequestReviewComment]
  obtain ⟨_, hbuild⟩ : ∃ job, build reviewContext false = .ok (some job) := ⟨_, rfl⟩
  obtain ⟨job, heq, -, hsteps⟩ := exists_of_build (s := reviewOutputs) rfl hbuild
  rw [heq] at hbuild
  have hmem : ownHandler reviewContext reviewOutputs .createPullRequest ∈
      steps reviewContext reviewOutputs := (mem_steps_own rfl rfl).mpr ⟨rfl, rfl⟩
  refine ⟨job, _, _, hbuild, (Job.generated_mem_steps hsteps).mpr hmem, rfl, rfl, hv, ?_,
    by decide⟩
  rw [evaluates_safeOutputType_iff hv]
  exact iff_of_true rfl ⟨_, List.mem_cons_self, .inr (by decide)⟩

end AgentPipeline.Dispatch
