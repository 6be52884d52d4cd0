import AgentPipeline.Proofs.Pipeline.Dispatch
import AgentPipeline.Proofs.Pipeline.Mention
import AgentPipeline.Proofs.Pipeline.Presence

/-!
# What strict mode guarantees

If a workflow is compiled in strict mode, its pipeline keeps three promises
(`Pipeline.IsGuarded`). The agent has no write access, identity tokens apart. The steps of the
compiler only run actions that are pinned to a known commit. And the project handler acts with
a token that one of the project kinds names.

Where the actions of the steps come from does not depend on the mode: each step runs an action
to which the resolver gave a reference (`Context.Provides`), unless it comes from a caller who
brings an engine of his own. The mode decides which references the resolver gives, whether the
permissions of the agent are accepted, and whether there is a default for the token.
-/

namespace AgentPipeline

/-! ### The steps of a job -/

/-- The actions that the generated steps run. -/
def Names.actions : List (String × String) :=
  [checkoutAction, scriptAction, uploadAction, downloadAction]

/-- **The context provides the action** of a step: the step runs none, or the resolver gave
the reference. -/
def Context.Provides (ctx : Context) (step : Step) : Prop :=
  ∀ action, step.uses = some action → ∃ a ∈ Names.actions, ctx.pin a = .ok action

/-- Each generated step of a job has a property. -/
def Job.ForallSteps (P : Step → Prop) (job : Job) : Prop :=
  ∀ step, .generated step ∈ job.steps → P step

namespace Job.ForallSteps

variable {P Q : Step → Prop} {job : Job}

/-- A property that implies another one passes it on to the steps of a job. -/
theorem mono (h : job.ForallSteps P) (hPQ : ∀ step, P step → Q step) : job.ForallSteps Q :=
  fun step hstep => hPQ step (h step hstep)

/-- A job that consists of generated steps has the property if each of them has it. -/
theorem of_steps_eq {steps : List Step} (h : job.steps = steps.map .generated)
    (hsteps : ∀ step ∈ steps, P step) : job.ForallSteps P := by
  intro step hstep
  rw [h] at hstep
  obtain ⟨step', hmem, heq⟩ := List.mem_map.mp hstep
  exact JobStep.generated.inj heq ▸ hsteps step' hmem

/-- A further step with the property keeps it. -/
theorem step (h : job.ForallSteps P) {s : Step} (hs : P s) : (job.step s).ForallSteps P := by
  intro step hstep
  rcases List.mem_append.mp hstep with hstep | hstep
  · exact h step hstep
  · exact JobStep.generated.inj (List.mem_singleton.mp hstep) ▸ hs

end Job.ForallSteps

namespace Context

variable {ctx : Context} {step : Step}

/-- A step that runs no action needs none from the context. -/
theorem provides_of_none (h : step.uses = none) : ctx.Provides step := by
  intro action haction
  rw [h] at haction
  cases haction

/-- A step that runs what the resolver gave for an action is provided for. -/
theorem provides_of_pin {a : String × String} {action : String} (ha : a ∈ Names.actions)
    (hpin : ctx.pin a = .ok action) (h : step.uses = some action) : ctx.Provides step := by
  intro action' haction'
  obtain rfl := Option.some.inj (h.symm.trans haction')
  exact ⟨a, ha, hpin⟩

end Context

/-! ### The control jobs -/

/-- The steps of the pre-activation job run actions that the resolver gave. -/
theorem PreActivation.provides_of_build {ctx : Context} {pre : PreActivation}
    (h : build ctx = .ok (some pre)) : pre.job.ForallSteps ctx.Provides := by
  rw [build_eq] at h
  obtain ⟨deadline, -, h⟩ := bind_eq_ok_iff.mp h
  split at h
  · cases h
  · obtain ⟨scriptAction, hscript, h⟩ := bind_eq_ok_iff.mp h
    obtain rfl := Option.some.inj (Except.ok.inj h)
    have hsteps : (ofChecks ctx (ctx.workflow.checks deadline) scriptAction).job.steps =
        ((ctx.workflow.checks deadline).map (·.step scriptAction)).map .generated := by
      rw [List.map_map]
      rfl
    refine .of_steps_eq hsteps (List.forall_mem_map.mpr fun check _ => ?_)
    exact Context.provides_of_pin (by simp [Names.actions]) hscript rfl

namespace Activation

variable {P : Step → Prop} {w : Workflow} {scriptAction : String} {job : Job}

/-- The reaction keeps a property of all steps if its own step has it. -/
theorem forallSteps_addReaction (h : job.ForallSteps P)
    (hreaction : ∀ reaction events, P (reactionStep w reaction events scriptAction)) :
    (addReaction w scriptAction job).ForallSteps P := by
  unfold addReaction
  split
  · exact h.step (hreaction _ _)
  · exact h

/-- The lock keeps a property of all steps if its own step has it. -/
theorem forallSteps_addLock (h : job.ForallSteps P)
    (hlock : ∀ events, P (lockStep events scriptAction)) :
    (addLock w scriptAction job).ForallSteps P := by
  unfold addLock
  split
  · exact h.step (hlock _)
  · exact h

/-- The steps of the activation job run actions that the resolver gave. -/
theorem provides_of_build {ctx : Context} {pre : Option PreActivation}
    {customJobs : List CustomJob} {a : Activation} (h : build ctx pre customJobs = .ok a)
    (hjob : a.job = some job) : job.ForallSteps ctx.Provides := by
  rw [build_eq] at h
  obtain ⟨user, -, h⟩ := bind_eq_ok_iff.mp h
  split at h
  · obtain rfl := Except.ok.inj h
    cases hjob
  · obtain ⟨scriptAction, hscript, h⟩ := bind_eq_ok_iff.mp h
    obtain rfl := Except.ok.inj h
    obtain rfl := Option.some.inj hjob
    have hprovides : ∀ step : Step, step.uses = some scriptAction → ctx.Provides step :=
      fun step => Context.provides_of_pin (by simp [Names.actions]) hscript
    refine forallSteps_addLock (forallSteps_addReaction (.step ?_ ?_) ?_) ?_
    · exact nofun
    · exact hprovides _ rfl
    · exact fun _ _ => hprovides _ rfl
    · exact fun _ => hprovides _ rfl

end Activation

/-! ### The agent job -/

namespace Agent

variable {ctx : Context} {activation : Activation} {customJobs : List CustomJob}
  {hasPreActivation : Bool} {engineSteps : List Step} {job : Job}

/-- Nothing but the steps of the engine runs other actions. -/
theorem provides_of_build
    (h : build ctx activation customJobs hasPreActivation engineSteps = .ok job) :
    job.ForallSteps fun step => step ∈ engineSteps ∨ ctx.Provides step := by
  obtain ⟨permissions, checkoutAction, hcheckout, hparts⟩ := build_eq_ok h
  have hcore : (core ctx activation customJobs hasPreActivation engineSteps permissions
      checkoutAction).ForallSteps fun step => step ∈ engineSteps ∨ ctx.Provides step := by
    intro step hstep
    -- the steps of the core are the checkout, the setup, the prompt and those of the engine
    rcases mem_mainSteps.mp hstep with heq | ⟨s, -, heq⟩ | heq | ⟨v, -, ⟨⟩⟩ | ⟨step', hmem, heq⟩
    · obtain rfl := JobStep.generated.inj heq
      exact .inr (Context.provides_of_pin (by simp [Names.actions]) hcheckout rfl)
    · obtain rfl := JobStep.generated.inj heq
      exact .inr (Context.provides_of_none rfl)
    · obtain rfl := JobStep.generated.inj heq
      exact .inr (Context.provides_of_none rfl)
    · obtain rfl := JobStep.generated.inj heq
      exact .inl hmem
  rcases hparts with ⟨-, rfl⟩ | ⟨s, scriptAction, uploadAction, -, hscript, hupload, rfl⟩
  · exact hcore
  · intro step hstep
    rcases mem_steps_published hstep with hstep | hstep
    · exact hcore step hstep
    · right
      simp only [List.mem_cons, JobStep.generated.injEq, List.not_mem_nil, or_false] at hstep
      rcases hstep with rfl | rfl | rfl | rfl
      · exact Context.provides_of_pin (by simp [Names.actions]) hscript rfl
      · exact Context.provides_of_pin (by simp [Names.actions]) hupload rfl
      · exact Context.provides_of_none rfl
      · exact Context.provides_of_pin (by simp [Names.actions]) hupload rfl

/-- The permissions of the workflow are accepted, and the job has them. -/
theorem permissions_of_build
    (h : build ctx activation customJobs hasPreActivation engineSteps = .ok job) :
    ∃ p, permissions ctx = .ok p ∧ job.permissions = some p := by
  obtain ⟨p, hp, h⟩ := bind_eq_ok_iff.mp h
  obtain ⟨checkoutAction, -, h⟩ := bind_eq_ok_iff.mp h
  refine ⟨p, hp, ?_⟩
  split at h
  · next s hs =>
    obtain ⟨scriptAction, -, h⟩ := bind_eq_ok_iff.mp h
    obtain ⟨uploadAction, -, h⟩ := bind_eq_ok_iff.mp h
    obtain rfl := Except.ok.inj h
    split <;> rfl
  · obtain rfl := Except.ok.inj h
    rfl

/-- In strict mode the agent job is only built without write access. -/
theorem writeScopes_of_strict {p : Permissions} (hstrict : ctx.strict = true)
    (h : permissions ctx = .ok p) : p.writeScopes = [] := by
  rw [permissions, hstrict] at h
  split at h
  · cases h
  · next hnone =>
    obtain rfl := Except.ok.inj h
    cases hscopes : (ctx.workflow.permissions.getD (.shorthand .readAll)).writeScopes with
    | nil => rfl
    | cons scope scopes => exact absurd hscopes (hnone scope scopes rfl)

end Agent

/-- There is no write access to count if identity tokens alone may be written. -/
theorem Permissions.writeScopes_eq_nil_iff {p : Permissions} :
    p.writeScopes = [] ↔ ∀ scope, p.get scope = some .write → scope = .idToken := by
  simp only [writeScopes, List.filter_eq_nil_iff, decide_eq_true_eq, not_and, Scope.mem_all,
    true_imp_iff]
  exact forall_congr' fun scope => by tauto

/-! ### The safe outputs job -/

namespace SafeOutputs

/-- **An explicit token**: one that a project kind names. -/
def IsProjectToken (s : SafeOutputs) (token : String) : Prop :=
  ∃ kind settings, kind.category = .project ∧ s.outputs kind = some settings ∧
    settings.githubToken = some token

/-- In strict mode there is no default for the token of the project handler. -/
theorem isProjectToken_of_strict {s : SafeOutputs} {token : String}
    (hprojects : s.kindsIn .project ≠ []) (h : s.projectToken true = .ok token) :
    s.IsProjectToken token := by
  unfold projectToken at h
  dsimp only at h
  split at h
  · next token' htoken =>
    obtain rfl := Except.ok.inj h
    obtain ⟨kind, hkind, htoken⟩ := List.exists_of_findSome?_eq_some htoken
    obtain ⟨settings, hsettings, htoken⟩ := Option.bind_eq_some_iff.mp htoken
    exact ⟨kind, settings, (mem_kindsIn.mp hkind).2, hsettings, htoken⟩
  · split at h
    · cases h
    · next hnone => exact absurd (List.head?_eq_none_iff.mp hnone) hprojects

end SafeOutputs

namespace Dispatch

variable {ctx : Context} {s : SafeOutputs}

/-- The steps of the safe outputs job run actions that the resolver gave. -/
theorem provides_of_found (hfound : Found ctx s) (hkinds : s.kinds ≠ []) :
    ∀ step ∈ steps ctx s, ctx.Provides step := by
  have hscript : ∀ step : Step, step.uses = some (ctx.action Names.scriptAction) →
      ctx.Provides step :=
    fun step => Context.provides_of_pin (by simp [Names.actions]) (hfound.script hkinds)
  have hdownload : ∀ step : Step, step.uses = some (ctx.action Names.downloadAction) →
      ctx.Provides step :=
    fun step => Context.provides_of_pin (by simp [Names.actions]) hfound.download
  intro step hstep
  rcases mem_steps.mp hstep with
    rfl | ⟨htree, hstep⟩ | ⟨-, rfl⟩ | ⟨-, rfl⟩ | ⟨kind, -, rfl⟩
  · exact hdownload _ rfl
  · simp only [setupSteps, List.mem_cons, List.not_mem_nil, or_false] at hstep
    rcases hstep with rfl | rfl | rfl
    · exact hdownload _ rfl
    · exact Context.provides_of_pin (by simp [Names.actions]) (hfound.checkout htree) rfl
    · exact Context.provides_of_none rfl
  · exact hscript _ rfl
  · exact hscript _ rfl
  · exact hscript _ rfl

end Dispatch

/-! ### The author's jobs -/

/-- What a key of a definition adds to a job is no generated step. -/
theorem CustomJob.forallSteps_of_converts {P : Step → Prop} {job job' : Job} {key : String}
    {v : Yaml.Value} (h : Converts job key v job') (hjob : job.ForallSteps P) :
    job'.ForallSteps P := by
  cases h with
  | steps =>
      intro step hstep
      rcases List.mem_append.mp hstep with hstep | hstep
      · exact hjob step hstep
      · obtain ⟨v, -, ⟨⟩⟩ := List.mem_map.mp hstep
  | _ => exact hjob

/-- The author's jobs have no generated steps. -/
theorem CustomJob.forallSteps_of_toJob {custom : CustomJob} {runner : String}
    {activationExists : Bool} {job : Job} (P : Step → Prop)
    (h : custom.toJob runner activationExists = .ok job) : job.ForallSteps P :=
  addEntries_invariant forallSteps_of_converts
    (fun _ hstep => absurd hstep List.not_mem_nil) h

/-! ### The promises -/

/-- **The promises of strict mode** for the pipeline of a workflow. -/
structure Pipeline.IsGuarded (p : Pipeline) (c : Compiler) (w : Workflow) : Prop where
  /-- the agent has no write access, identity tokens apart -/
  readOnly : ∃ agent permissions, p.jobs.get? Names.agentJob = some agent ∧
    agent.permissions = some permissions ∧
    ∀ scope, permissions.get scope = some .write → scope = .idToken
  /-- each action that a step of the compiler runs is pinned -/
  pinned : ∀ job ∈ p.jobs.members, ∀ step, .generated step ∈ job.steps →
    (∀ steps, c.engine = some steps → step ∉ steps w) →
    ∀ action, step.uses = some action → ∃ a ∈ Names.actions,
      Resolver.Pins ⟨true, c.lookup, Pin.catalog⟩ a.1 a.2 action
  /-- if a project kind is configured, there is a project handler, and it acts with a token
  that one of the project kinds names -/
  explicitToken : ∀ s, w.safeOutputs = some s →
    (∃ kind, s.has kind = true ∧ kind.category = .project) →
    ∃ job, p.jobs.get? Names.safeOutputsJob = some job ∧
      (∃ step, .generated step ∈ job.steps ∧ step.id = some Dispatch.projectStepId) ∧
      ∀ step, .generated step ∈ job.steps → step.id = some Dispatch.projectStepId →
        ∃ token, step.inputs.lookup "github-token" = some token ∧ s.IsProjectToken token

namespace Compiler

variable {c : Compiler} {w : Workflow} {sourceStem : Option String} {ctx : Context}
  {g : Generated} {graph : JobGraph} {job : Job}

namespace Generates

/-- **Where the actions come from.** Each generated step runs an action that the context
provides, unless the engine brought it. -/
theorem provides (hg : c.Generates ctx g) (h : g.Origin ctx job) :
    job.ForallSteps fun step => step ∈ c.engineSteps ctx.workflow ∨ ctx.Provides step := by
  cases h with
  | preActivation hpre =>
      exact (PreActivation.provides_of_build (hpre ▸ hg.preActivation)).mono fun _ => .inr
  | activation hjob =>
      exact (Activation.provides_of_build hg.activation hjob).mono fun _ => .inr
  | agent => exact Agent.provides_of_build hg.agent
  | custom _ hjob => exact CustomJob.forallSteps_of_toJob _ hjob
  | safeOutputs hjob =>
      cases hs : ctx.workflow.outputs with
      | none =>
          have hsome := Dispatch.isSome_of_build hg.safeOutputs
          rw [hs, hjob] at hsome
          cases hsome
      | some s =>
          obtain ⟨job', hjob', hfound, hsteps⟩ := Dispatch.exists_of_build hs hg.safeOutputs
          obtain rfl := Option.some.inj (hjob.symm.trans hjob')
          have hkinds := (Workflow.outputs_eq_some_iff.mp hs).2
          exact .of_steps_eq hsteps fun step hstep =>
            .inr (Dispatch.provides_of_found hfound hkinds step hstep)

/-- The assembled graph holds the agent job under its name. -/
theorem get?_agent (hg : c.Generates ctx g) (hgraph : assemble ctx g = .ok graph) :
    graph.get? Names.agentJob = some g.agent :=
  JobGraph.get?_eq_some_iff.mpr
    ⟨(mem_members_of_assemble hgraph).mpr .agent, hg.agent_place.1⟩

/-- The assembled graph holds the safe outputs job under its name. -/
theorem get?_safeOutputs (hg : c.Generates ctx g) (hgraph : assemble ctx g = .ok graph)
    (hjob : g.safeOutputs = some job) : graph.get? Names.safeOutputsJob = some job :=
  JobGraph.get?_eq_some_iff.mpr
    ⟨(mem_members_of_assemble hgraph).mpr (.safeOutputs hjob), (hg.safeOutputs_place hjob).1⟩

end Generates

/-- The steps of the workflow's own engine run no actions. -/
theorem uses_of_mem_engineSteps {step : Step} (h : step ∈ c.engineSteps w)
    (hcaller : ∀ steps, c.engine = some steps → step ∉ steps w) : step.uses = none := by
  unfold engineSteps at h
  split at h
  · next steps hsteps => exact absurd h (hcaller steps hsteps)
  · obtain rfl := List.mem_singleton.mp h
    rfl

/-- **Strict mode keeps its promises** in each pipeline that is compiled in it. -/
theorem isGuarded_of_strict {p : Pipeline} (hstrict : c.options.strict = true ∨ w.strict = true)
    (h : c.compileFrom w sourceStem = .ok p) : p.IsGuarded c w := by
  obtain ⟨g, hg, hgraph, -, -⟩ := compileFrom_eq_ok_iff.mp h
  have hmode : (c.options.strict || w.strict) = true := by simpa using hstrict
  refine ⟨?_, fun job hjob step hstep hcaller action haction => ?_, fun s hs hproject => ?_⟩
  -- the agent job: in strict mode its permissions passed the check for write access
  · obtain ⟨permissions, hpermissions, hagent⟩ := Agent.permissions_of_build hg.agent
    exact ⟨g.agent, permissions, hg.get?_agent hgraph, hagent,
      Permissions.writeScopes_eq_nil_iff.mp (Agent.writeScopes_of_strict hmode hpermissions)⟩
  -- the steps: what the resolver gives in strict mode is pinned
  · rcases hg.provides ((mem_members_of_assemble hgraph).mp hjob) step hstep with
      hengine | hprovides
    · rw [uses_of_mem_engineSteps hengine hcaller] at haction
      cases haction
    · obtain ⟨a, ha, hpin⟩ := hprovides action haction
      refine ⟨a, ha, Resolver.pins_of_resolve rfl ?_⟩
      rw [← hmode]
      exact hpin
  -- the token: there is a project handler, and it got a token that a project kind names
  · obtain ⟨kind, hkind, hcategory⟩ := hproject
    have hprojects : s.kindsIn .project ≠ [] :=
      List.ne_nil_of_mem (SafeOutputs.mem_kindsIn.mpr ⟨hkind, hcategory⟩)
    have houtputs : (c.context w sourceStem).workflow.outputs = some s :=
      Workflow.outputs_eq_some_iff.mpr ⟨hs, SafeOutputs.kinds_ne_nil hprojects⟩
    obtain ⟨job, hjob, hfound, hsteps⟩ := Dispatch.exists_of_build houtputs hg.safeOutputs
    have hmem {step : Step} : .generated step ∈ job.steps ↔
        step ∈ Dispatch.steps (c.context w sourceStem) s := Job.generated_mem_steps hsteps
    refine ⟨job, hg.get?_safeOutputs hgraph hjob, ?_, fun step hstep hid => ?_⟩
    · exact ⟨Dispatch.projectHandler (c.context w sourceStem) s (s.kindsIn .project),
        hmem.mpr ((Dispatch.mem_steps_project rfl).mpr ⟨hprojects, rfl⟩), rfl⟩
    · obtain ⟨-, rfl⟩ := (Dispatch.mem_steps_project hid).mp (hmem.mp hstep)
      refine ⟨_, rfl, SafeOutputs.isProjectToken_of_strict hprojects ?_⟩
      rw [← hmode]
      exact hfound.token hprojects

/-! ### A strict workflow -/

/-- The settings of a workflow whose agent may ask for a project. -/
def chartingOutputs : SafeOutputs :=
  SafeOutputs.empty.insert .createProject
    { OutputSettings.default with githubToken := some "token" }

/-- A strict workflow with a project kind. -/
def charting : Workflow :=
  { Workflow.named "chart" with
    triggers := .ofList [("schedule", .null)]
    safeOutputs := some chartingOutputs
    strict := true }

/-- The project handler of the strict workflow. -/
def chartingStep : Step :=
  Dispatch.projectStep chartingOutputs [.createProject] "token"
    "actions/github-script@11bd719 # v8"

/-- What is generated from the strict workflow. -/
def charted : Generated :=
  let ctx := running.context charting none
  let job := (Dispatch.base ctx chartingOutputs false).step
    (Dispatch.downloadOutputStep "actions/download-artifact@11bd719 # v5.0.0")
  ⟨[], none, ⟨none, none⟩,
    Agent.published chartingOutputs "actions/github-script@11bd719 # v8"
      "actions/upload-artifact@11bd719 # v4.6.2"
      (Agent.core ctx ⟨none, none⟩ [] false (charting.engine.steps charting)
        (.shorthand .readAll) "actions/checkout@11bd719 # v5.0.0"),
    some ((job.step chartingStep).output "temporary_project_map" Dispatch.projectMap)⟩

/-- The jobs of the strict workflow, as they are generated. -/
theorem generates_charted :
    running.Generates (running.context charting none) charted :=
  ⟨rfl, rfl, rfl, rfl, rfl⟩

/-- The handlers get the settings of a project, and no token. -/
theorem handlerConfig_chartingOutputs :
    chartingOutputs.handlerConfig [.createProject] =
      "\x7b\"create_project\":\x7b\"max\":1\x7d\x7d" := by
  decide +kernel

/-- The setup step of the strict workflow has no references. -/
theorem plain_setupStep_charting : (Agent.setupStep chartingOutputs).Plain where
  name := (by decide : '$' ∉ "Setup safe outputs".toList)
  id := nofun
  condition := nofun
  entries := by
    have hkinds : chartingOutputs.kinds = [.createProject] := by decide
    rw [Agent.setupStep, hkinds, handlerConfig_chartingOutputs]
    decide
  run := by
    rintro _ ⟨⟩
    exact mt Reference.utf8EncodeChar_subset (by decide)

/-- The project handler of the strict workflow has no references. -/
theorem plain_chartingStep : chartingStep.Plain where
  name := (by decide : '$' ∉ "Process project safe outputs".toList)
  id := by
    rintro _ ⟨⟩
    decide
  condition := by
    rintro _ ⟨⟩
    decide +kernel
  entries := by
    rw [chartingStep, Dispatch.projectStep, handlerConfig_chartingOutputs]
    decide
  run := nofun

/-- The agent job refers to nothing. -/
theorem covered_charted_agent : charted.agent.Covered := by
  refine covered_agent_of_plain generates_charted rfl rfl fun s hs => ?_
  obtain rfl : chartingOutputs = s := Option.some.inj hs
  exact plain_setupStep_charting

/-- The safe outputs job refers to the agent job only. -/
theorem covered_charted_safeOutputs {job : Job} (hjob : charted.safeOutputs = some job) :
    job.Covered := by
  obtain rfl := Option.some.inj hjob
  have hsteps : ∀ step ∈ [Dispatch.downloadOutputStep "actions/download-artifact@11bd719 # v5.0.0",
      chartingStep], step.Plain :=
    List.forall_mem_cons.mpr ⟨Dispatch.plain_downloadOutputStep _,
      List.forall_mem_singleton.mpr plain_chartingStep⟩
  refine Job.covered_of_plain rfl hsteps ?_ ?_
  · change ∀ condition ∈ [Clause.agentCompleted.render,
      Dispatch.anyOutput Clause.safeOutputType [.createProject]],
      ∀ name ∈ (Reference.needsReferences condition).toList, name ∈ [Names.agentJob]
    decide +kernel
  · change ∀ text ∈ ["actions/download-artifact@11bd719 # v5.0.0",
      "actions/github-script@11bd719 # v8"] ++ ((Dictionary.empty.insert "temporary_project_map"
        Dispatch.projectMap).values ++
        (Dictionary.ofList
          [("GH_AW_WORKFLOW_NAME", "chart"), ("GH_AW_AGENT_OUTPUT", Agent.outputFile)]).values ++
        (none : Option String).toList),
      (Reference.templateReferences text).toList = []
    decide

/-- The strict workflow is compiled, and its pipeline keeps the promises. -/
theorem isGuarded_of_strict_charting :
    ∃ p, running.compileFrom charting none = .ok p ∧ p.IsGuarded running charting := by
  obtain ⟨p, hp, -⟩ := exists_compileFrom generates_charted rfl fun job horigin => by
    cases horigin with
    | preActivation h => cases h
    | activation h => cases h
    | agent => exact covered_charted_agent
    | custom h _ => cases h
    | safeOutputs h => exact covered_charted_safeOutputs h
  exact ⟨p, hp, isGuarded_of_strict (.inr rfl) hp⟩

end Compiler

end AgentPipeline
