import AgentPipeline.Proofs.Pipeline.Agent
import AgentPipeline.Proofs.Pipeline.Place
import AgentPipeline.Proofs.Reference.Names

/-!
# The place of the author's condition

The author's condition of a workflow stands at exactly one place. It is a clause of the
activation job if that job needs all jobs that the condition refers to; otherwise it is the
condition of the agent job, as it was written, and the activation job has the generated
clauses only. Wherever it stands, the activation job needs all jobs that its own condition
refers to (`place_of_condition`), since a conjunction refers to what its clauses refer to.
-/

namespace AgentPipeline.Activation

open Reference (needsReferences)

variable {ctx : Context} {pre : Option PreActivation} {customJobs : List CustomJob}
  {a : Activation} {agent : Job} {engineSteps : List Step}

theorem isCovered_iff {names : List String} {c : Condition} :
    isCovered names c = true ↔ ∀ name ∈ (needsReferences c.render).toList, name ∈ names := by
  simp [isCovered]

/-! ### References of the generated clauses -/

/-- The gate refers to the pre-activation job. -/
theorem references_gateClause (pre : PreActivation) :
    (needsReferences (gateClause pre).render).toList = [Names.preActivationJob] := by
  unfold gateClause
  cases pre.hasSkipCondition <;> decide

/-- The check of `workflow_run` events refers to no job. -/
theorem references_workflowRunFromHere :
    (needsReferences Clause.workflowRunFromHere.render).toList = [] := by
  decide +kernel

/-- The activation job needs what its clauses refer to. -/
theorem isCovered_of_mem_clauses {w : Workflow} {user : Option Condition}
    (huser : ∀ c, user = some c → isCovered (needs pre.isSome customJobs) c = true) :
    ∀ c ∈ clauses w pre user, isCovered (needs pre.isSome customJobs) c = true := by
  refine forall_mem_clauses.mpr ⟨?_, huser, fun _ => ?_⟩
  · rintro p rfl
    rw [isCovered_iff, references_gateClause]
    intro name hname
    obtain rfl := List.mem_singleton.mp hname
    exact mem_needs.mpr ⟨rfl, .inl rfl⟩
  · rw [isCovered_iff, references_workflowRunFromHere]
    exact List.forall_mem_nil _

/-- A job needs what its condition refers to if it needs what the clauses refer to. -/
theorem references_subset_of_clauses {names : List String} {clauses : List Condition}
    (h : ∀ c ∈ clauses, isCovered names c = true) {text : String}
    (htext : (Condition.conjunction clauses).map (·.render) = some text) :
    ∀ name ∈ (needsReferences text).toList, name ∈ names := by
  intro name hname
  obtain ⟨c, hc, rfl⟩ := Option.map_eq_some_iff.mp htext
  obtain ⟨clause, hclause, hmem⟩ :=
    (Reference.mem_needsReferences_conjunction hc).mp hname
  exact isCovered_iff.mp (h clause hclause) name hmem

/-! ### The place -/

/-- **The place of the author's condition.** There is an activation job. If it needs all jobs
that the author's condition refers to, the condition is one of the clauses and the agent job
has none; otherwise the agent job has it and the clauses are the generated ones. In either
case the activation job needs all jobs that its condition refers to. -/
theorem place_of_condition {text : String} {user : Condition}
    (htext : ctx.workflow.condition = some text) (hread : readCondition text = .ok user)
    (h : build ctx pre customJobs = .ok a)
    (hagent : Agent.build ctx a customJobs pre.isSome engineSteps = .ok agent) :
    ∃ job, a.job = some job ∧
      ((∀ name ∈ (needsReferences user.render).toList, name ∈ job.needs) →
        agent.condition = none ∧ user ∈ clauses ctx.workflow pre (some user) ∧
          job.condition = (Condition.conjunction
            (clauses ctx.workflow pre (some user))).map (·.render)) ∧
      (¬(∀ name ∈ (needsReferences user.render).toList, name ∈ job.needs) →
        agent.condition = some user.render ∧
          job.condition = (Condition.conjunction
            (clauses ctx.workflow pre none)).map (·.render)) ∧
      ∀ condition, job.condition = some condition →
        ∀ name ∈ (needsReferences condition).toList, name ∈ job.needs := by
  have huser : ctx.workflow.condition.mapM readCondition = .ok (some user) := by
    rw [htext]
    exact map_eq_ok_iff.mpr ⟨user, hread, rfl⟩
  rcases build_eq_ok h with ⟨hneeded, -⟩ | ⟨user', scriptAction, huser', hsome, hmoved⟩
  · simp [isNeeded, htext] at hneeded
  obtain rfl : some user = user' := Except.ok.inj (huser.symm.trans huser')
  refine ⟨_, hsome, ?_⟩
  rw [Agent.build_condition hagent, hmoved, activationJob_needs, activationJob_condition,
    ← isCovered_iff]
  -- whether the condition stays is decided by the needs of the job, before the job is made
  cases hcovered : isCovered (needs pre.isSome customJobs) user with
  | true =>
      have hkept : (some user).filter (isCovered (needs pre.isSome customJobs)) = some user := by
        simp [hcovered]
      rw [hkept]
      refine ⟨fun _ => ⟨by simp [hcovered], by simp [clauses], rfl⟩, fun hnot => absurd rfl hnot,
        fun condition hcondition => ?_⟩
      refine references_subset_of_clauses (isCovered_of_mem_clauses fun c hc => ?_) hcondition
      rwa [← Option.some.inj hc]
  | false =>
      have hdropped : (some user).filter (isCovered (needs pre.isSome customJobs)) = none := by
        simp [hcovered]
      rw [hdropped]
      refine ⟨fun hyes => absurd hyes Bool.false_ne_true, fun _ => ⟨by simp [hcovered], rfl⟩,
        fun condition hcondition => ?_⟩
      exact references_subset_of_clauses (isCovered_of_mem_clauses (by simp)) hcondition

/-- A condition on a job that the activation job does not need moves to the agent. -/
theorem place_of_condition_fetch :
    let w : Workflow :=
      { Workflow.named "triage" with condition := some "$\x7b\x7b needs.fetch.outputs.ok \x7d\x7d" }
    let ctx : Context :=
      { workflow := w, strict := true, runner := "ubuntu-latest", now := 0, sourceStem := none,
        resolver := ⟨true, fun _ _ => some "ed597411d8f924073f98dfc5c65a23a2325f34cd", []⟩ }
    ∃ a job agent, build ctx none [] = .ok a ∧ a.job = some job ∧
      Agent.build ctx a [] false [] = .ok agent ∧
      job.condition = none ∧ agent.condition = some "needs.fetch.outputs.ok" := by
  intro w ctx
  have hparse : Condition.parse "needs.fetch.outputs.ok" =
      .ok (.leaf "needs.fetch.outputs.ok") := by
    refine Condition.parse_eq_ok_iff.mpr
      ⟨[⟨.literal "needs.fetch.outputs.ok", 0⟩], by decide, ?_⟩
    exact .conjunct (.unary (.primary (.literal "needs.fetch.outputs.ok")))
  have hread : readCondition "$\x7b\x7b needs.fetch.outputs.ok \x7d\x7d" =
      .ok (.leaf "needs.fetch.outputs.ok") := by
    have hunwrap : Reference.unwrapTemplate "$\x7b\x7b needs.fetch.outputs.ok \x7d\x7d" =
        "needs.fetch.outputs.ok" := by decide
    rw [readCondition, hunwrap, hparse]
    rfl
  -- the condition has no needs to be covered by, so it moves to the agent
  have hbuild : ∃ a agent, build ctx none [] = .ok a ∧
      Agent.build ctx a [] (none : Option PreActivation).isSome [] = .ok agent := by
    have huser : ctx.workflow.condition.mapM readCondition =
        .ok (some (.leaf "needs.fetch.outputs.ok")) := map_eq_ok_iff.mpr ⟨_, hread, rfl⟩
    rw [build_eq, huser]
    exact ⟨_, _, rfl, rfl⟩
  obtain ⟨a, agent, ha, hagent⟩ := hbuild
  obtain ⟨job, hjob, -, hmoves, -⟩ := place_of_condition rfl hread ha hagent
  have hfetch : "fetch" ∈ (needsReferences "needs.fetch.outputs.ok").toList := by
    decide
  have hneeds : job.needs = [] := by
    rcases build_eq_ok ha with ⟨-, hnone⟩ | ⟨_, _, -, hsome, -⟩
    · rw [hjob] at hnone
      cases hnone
    · obtain rfl := Option.some.inj (hjob.symm.trans hsome)
      exact activationJob_needs ..
  obtain ⟨hmoved, hrest⟩ := hmoves fun hall =>
    absurd (hall "fetch" hfetch) (by rw [hneeds]; exact List.not_mem_nil)
  exact ⟨a, job, agent, ha, hjob, hagent, hrest, hmoved⟩

end AgentPipeline.Activation
