import AgentPipeline.Pipeline.Agent
import AgentPipeline.Proofs.Except
import AgentPipeline.Proofs.Pipeline.Activation

/-!
# The parts of the agent job

The agent job is made in two parts. Its **core** has the steps up to the agent and all that
is not a step. If the agent may ask for outputs, the steps that publish them come behind the
core and change nothing else than the steps and the outputs (`build_eq_ok`).
-/

namespace AgentPipeline.Agent

variable {ctx : Context} {activation : Activation} {customJobs : List CustomJob}
  {hasPreActivation : Bool} {engineSteps : List Step} {job : Job}

/-- **The core of the agent job**: the job before anything is published. -/
def core (ctx : Context) (activation : Activation) (customJobs : List CustomJob)
    (hasPreActivation : Bool) (engineSteps : List Step) (permissions : Permissions)
    (checkoutAction : String) : Job :=
  let condition := activation.agentCondition.map (·.render)
  { name := Names.agentJob
    runsOn := ctx.runner
    needs := needs activation.job.isSome
      (referencedJobs ctx.workflow condition customJobs hasPreActivation)
    condition
    permissions := some permissions
    timeoutMinutes := ctx.workflow.timeoutMinutes
    environment := ctx.workflow.environment
    steps := mainSteps ctx.workflow checkoutAction engineSteps }

/-- The core with the steps that publish what the agent asked for. -/
def published (s : SafeOutputs) (scriptAction uploadAction : String) (job : Job) : Job :=
  let job := addCollection s scriptAction uploadAction job
  if s.kinds.any (·.requiresWorkingTree) then addPatch uploadAction job else job

/-- The steps of the core. -/
theorem mem_mainSteps {w : Workflow} {checkoutAction : String} {step : JobStep} :
    step ∈ mainSteps w checkoutAction engineSteps ↔
      step = .generated (checkoutStep checkoutAction) ∨
      (∃ s, w.outputs = some s ∧ step = .generated (setupStep s)) ∨
      step = .generated (promptStep w.markdown) ∨
      (∃ v ∈ w.steps, step = .authored v) ∨ ∃ s ∈ engineSteps, step = .generated s := by
  simp [mainSteps, eq_comm (a := step)]

/-- The steps that publish what the agent asked for come behind the core. -/
theorem mem_steps_published {s : SafeOutputs} {scriptAction uploadAction : String}
    {step : JobStep} (h : step ∈ (published s scriptAction uploadAction job).steps) :
    step ∈ job.steps ∨
      step ∈ [JobStep.generated (collectStep s scriptAction),
        .generated (uploadOutputStep uploadAction), .generated patchStep,
        .generated (uploadPatchStep uploadAction)] := by
  cases htree : s.kinds.any (·.requiresWorkingTree) <;>
    simp [published, htree, addCollection, addPatch, Job.step, Job.addSteps, Job.output] at h <;>
    grind

theorem published_condition (s : SafeOutputs) (scriptAction uploadAction : String) (job : Job) :
    (published s scriptAction uploadAction job).condition = job.condition := by
  cases h : s.kinds.any (·.requiresWorkingTree) <;>
    simp [published, h, addCollection, addPatch]

/-- **The parts of a build**: the core, and what is published if the agent may ask for
outputs. The actions are pinned. -/
theorem build_eq_ok
    (h : build ctx activation customJobs hasPreActivation engineSteps = .ok job) :
    ∃ permissions checkoutAction, ctx.pin Names.checkoutAction = .ok checkoutAction ∧
      ((ctx.workflow.outputs = none ∧
          job = core ctx activation customJobs hasPreActivation engineSteps permissions
            checkoutAction) ∨
        ∃ s scriptAction uploadAction, ctx.workflow.outputs = some s ∧
          ctx.pin Names.scriptAction = .ok scriptAction ∧
          ctx.pin Names.uploadAction = .ok uploadAction ∧
          job = published s scriptAction uploadAction
            (core ctx activation customJobs hasPreActivation engineSteps permissions
              checkoutAction)) := by
  obtain ⟨permissions, -, h⟩ := bind_eq_ok_iff.mp h
  obtain ⟨checkoutAction, hcheckout, h⟩ := bind_eq_ok_iff.mp h
  refine ⟨permissions, checkoutAction, hcheckout, ?_⟩
  split at h
  · next s hs =>
    obtain ⟨scriptAction, hscript, h⟩ := bind_eq_ok_iff.mp h
    obtain ⟨uploadAction, hupload, h⟩ := bind_eq_ok_iff.mp h
    exact .inr ⟨s, scriptAction, uploadAction, hs, hscript, hupload, (Except.ok.inj h).symm⟩
  · next hnone => exact .inl ⟨hnone, (Except.ok.inj h).symm⟩

/-- The agent job has the condition that moved to it, and no other one. -/
theorem build_condition
    (h : build ctx activation customJobs hasPreActivation engineSteps = .ok job) :
    job.condition = activation.agentCondition.map (·.render) := by
  obtain ⟨permissions, checkoutAction, -,
    ⟨-, rfl⟩ | ⟨s, scriptAction, uploadAction, -, -, -, rfl⟩⟩ :=
    build_eq_ok h
  · rfl
  · exact published_condition ..

end AgentPipeline.Agent
