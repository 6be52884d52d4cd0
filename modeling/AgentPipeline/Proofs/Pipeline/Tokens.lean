import AgentPipeline.Proofs.Pipeline.Mention
import AgentPipeline.Proofs.Pipeline.Presence

/-!
# Tokens stay in the safe outputs job

The tokens with write access are settings of the workflow and of its safe outputs. Only the
safe outputs job acts with them. All other jobs are generated from what is left of the
workflow when its tokens are taken out (`Workflow.withoutTokens`): stage by stage a build
gives the same job with the tokens and without them, and so workflows that differ in their
tokens only have the same jobs but for the safe outputs job (`jobs_eq_of_withoutTokens`).
This includes the settings of the handlers, which are written into the agent job as well.
-/

namespace AgentPipeline

/-! ### Workflows without tokens -/

/-- The settings of a kind without its token. -/
def OutputSettings.withoutToken (settings : OutputSettings) : OutputSettings :=
  { settings with githubToken := none }

/-- The settings of safe outputs without the token of the section and those of the kinds. -/
def SafeOutputs.withoutTokens (s : SafeOutputs) : SafeOutputs :=
  { s with
    githubToken := none
    outputs := fun kind => (s.outputs kind).map (·.withoutToken) }

/-- **The workflow without its tokens.** Two workflows differ in their tokens only if this
makes them equal. -/
def Workflow.withoutTokens (w : Workflow) : Workflow :=
  { w with
    githubToken := none
    safeOutputs := w.safeOutputs.map (·.withoutTokens) }

/-- The context of the workflow without its tokens. -/
def Context.withoutTokens (ctx : Context) : Context :=
  { ctx with workflow := ctx.workflow.withoutTokens }

/-- The runner does not depend on the tokens. -/
theorem Context.runner_withoutTokens (ctx : Context) :
    ctx.withoutTokens.runner = ctx.runner := rfl

namespace SafeOutputs

/-- The kinds keep their settings but for the tokens. -/
@[simp] theorem outputs_withoutTokens (s : SafeOutputs) (kind : OutputKind) :
    s.withoutTokens.outputs kind = (s.outputs kind).map (·.withoutToken) := rfl

/-- The same kinds are configured without the tokens. -/
@[simp] theorem has_withoutTokens (s : SafeOutputs) (kind : OutputKind) :
    s.withoutTokens.has kind = s.has kind := Option.isSome_map

/-- The list of the kinds is the same without the tokens. -/
@[simp] theorem kinds_withoutTokens (s : SafeOutputs) : s.withoutTokens.kinds = s.kinds :=
  List.filter_congr fun kind _ => s.has_withoutTokens kind

/-- There are settings without the tokens exactly if there are any. -/
@[simp] theorem isEmpty_withoutTokens (s : SafeOutputs) :
    s.withoutTokens.isEmpty = s.isEmpty := by
  rw [isEmpty, kinds_withoutTokens, isEmpty]

/-- The limits of the kinds are the same without the tokens. -/
@[simp] theorem limit_withoutTokens (s : SafeOutputs) (kind : OutputKind) :
    s.withoutTokens.limit kind = s.limit kind := by
  rw [limit, outputs_withoutTokens, limit]
  cases s.outputs kind <;> rfl

/-- The handlers get the same settings: a token is not among them. -/
@[simp] theorem handlerConfig_withoutTokens (s : SafeOutputs) (kinds : List OutputKind) :
    s.withoutTokens.handlerConfig kinds = s.handlerConfig kinds := by
  have hentry : ∀ kind,
      ((s.withoutTokens.outputs kind).map fun settings =>
        (kind.outputType, handlerEntry settings (s.withoutTokens.limit kind))) =
      (s.outputs kind).map fun settings =>
        (kind.outputType, handlerEntry settings (s.limit kind)) := by
    intro kind
    rw [limit_withoutTokens, outputs_withoutTokens, Option.map_map]
    rfl
  simp only [handlerConfig, handlerEntries, hentry]

end SafeOutputs

namespace Workflow

/-- The author's jobs do not depend on the tokens. -/
theorem customJobs_withoutTokens (w : Workflow) : w.withoutTokens.customJobs = w.customJobs := rfl

/-- The safe outputs of the workflow without its tokens. -/
@[simp] theorem outputs_withoutTokens (w : Workflow) :
    w.withoutTokens.outputs = w.outputs.map (·.withoutTokens) := by
  unfold outputs withoutTokens
  cases w.safeOutputs with
  | none => rfl
  | some s => cases hempty : s.isEmpty <;> simp [Option.filter, hempty]

/-- There are safe outputs without the tokens exactly if there are any. -/
@[simp] theorem hasSafeOutputs_withoutTokens (w : Workflow) :
    w.withoutTokens.hasSafeOutputs = w.hasSafeOutputs := by
  simp [hasSafeOutputs]

end Workflow

/-! ### The builds -/

/-- The pre-activation job does not depend on the tokens. -/
theorem PreActivation.build_withoutTokens (ctx : Context) :
    build ctx.withoutTokens = build ctx := rfl

/-- The activation job does not depend on the tokens. -/
theorem Activation.build_withoutTokens (ctx : Context) (pre : Option PreActivation)
    (customJobs : List CustomJob) :
    build ctx.withoutTokens pre customJobs = build ctx pre customJobs := rfl

/-- The steps of the engine do not depend on the tokens. -/
theorem Engine.steps_withoutTokens (e : Engine) (w : Workflow) :
    e.steps w.withoutTokens = e.steps w := by
  unfold steps
  rw [Workflow.hasSafeOutputs_withoutTokens]

namespace Agent

/-- The main steps of the agent job do not depend on the tokens. -/
theorem mainSteps_withoutTokens (w : Workflow) (checkoutAction : String)
    (engineSteps : List Step) :
    mainSteps w.withoutTokens checkoutAction engineSteps =
      mainSteps w checkoutAction engineSteps := by
  have hsetup : ∀ s : SafeOutputs, setupStep s.withoutTokens = setupStep s := fun s => by
    simp [setupStep]
  unfold mainSteps
  rw [Workflow.outputs_withoutTokens, Option.map_map]
  simp only [Function.comp_def, hsetup]
  rfl

/-- What the agent job publishes does not depend on the tokens: the settings that are written into
it are those of the handlers, which have none. -/
theorem addPublication_withoutTokens (ctx : Context) (s : SafeOutputs) (job : Job) :
    addPublication ctx.withoutTokens s.withoutTokens job = addPublication ctx s job := by
  simp only [addPublication, addCollection, collectStep, SafeOutputs.kinds_withoutTokens]
  rfl

/-- The agent job does not depend on the tokens. -/
theorem build_withoutTokens (ctx : Context) (activation : Activation)
    (customJobs : List CustomJob) (hasPreActivation : Bool) (engineSteps : List Step) :
    build ctx.withoutTokens activation customJobs hasPreActivation engineSteps =
      build ctx activation customJobs hasPreActivation engineSteps := by
  have hworkflow : ctx.withoutTokens.workflow = ctx.workflow.withoutTokens := rfl
  unfold build
  simp only [hworkflow, mainSteps_withoutTokens, Workflow.outputs_withoutTokens]
  cases ctx.workflow.outputs with
  | none => rfl
  | some s =>
      simp only [Option.map_some, addPublication_withoutTokens]
      rfl

end Agent

/-! ### The compilation -/

namespace Compiler

variable {c : Compiler} {ctx ctx' : Context} {g g' : Generated} {graph graph' : JobGraph}
  {job : Job}

/-- What is generated is the same but for the safe outputs job, which is there or not in both
cases. -/
structure Generated.Agree (g g' : Generated) : Prop where
  customJobs : g'.customJobs = g.customJobs
  preActivation : g'.preActivation = g.preActivation
  activation : g'.activation = g.activation
  agent : g'.agent = g.agent
  safeOutputs : g'.safeOutputs.isSome = g.safeOutputs.isSome

/-- The engine of the workflow does not look at its tokens. -/
theorem engineSteps_withoutTokens (hengine : c.engine = none) (w : Workflow) :
    c.engineSteps w.withoutTokens = c.engineSteps w := by
  rw [engineSteps, engineSteps, hengine]
  exact Engine.steps_withoutTokens ..

/-- **The generated jobs** of workflows that differ in their tokens only. -/
theorem Generates.agree (hengine : c.engine = none) (hg : c.Generates ctx g)
    (hg' : c.Generates ctx' g') (h : ctx.withoutTokens = ctx'.withoutTokens) :
    g.Agree g' := by
  obtain ⟨customJobs, pre, activation, agent, safeOutputs⟩ := g
  obtain ⟨customJobs', pre', activation', agent', safeOutputs'⟩ := g'
  have hworkflow : ctx.workflow.withoutTokens = ctx'.workflow.withoutTokens :=
    congrArg Context.workflow h
  -- each stage gives the same as for the workflow without tokens, and so twice the same
  have hcustomJobs := hg.customJobs
  rw [← Workflow.customJobs_withoutTokens, hworkflow, Workflow.customJobs_withoutTokens,
    hg'.customJobs] at hcustomJobs
  obtain rfl : customJobs' = customJobs := Except.ok.inj hcustomJobs
  have hpre := hg.preActivation
  rw [← PreActivation.build_withoutTokens, h, PreActivation.build_withoutTokens,
    hg'.preActivation] at hpre
  obtain rfl : pre' = pre := Except.ok.inj hpre
  have hactivation := hg.activation
  rw [← Activation.build_withoutTokens, h, Activation.build_withoutTokens,
    hg'.activation] at hactivation
  obtain rfl : activation' = activation := Except.ok.inj hactivation
  have hagent := hg.agent
  rw [← Agent.build_withoutTokens, h, Agent.build_withoutTokens,
    ← engineSteps_withoutTokens hengine, hworkflow, engineSteps_withoutTokens hengine,
    hg'.agent] at hagent
  obtain rfl : agent' = agent := Except.ok.inj hagent
  have houtputs : ctx'.workflow.outputs.isSome = ctx.workflow.outputs.isSome := by
    simpa using congrArg (·.outputs.isSome) hworkflow.symm
  refine ⟨rfl, rfl, rfl, rfl, ?_⟩
  rw [Dispatch.isSome_of_build hg.safeOutputs, Dispatch.isSome_of_build hg'.safeOutputs, houtputs]

namespace Generated.Agree

/-- Agreement does not depend on the order. -/
theorem symm (h : g.Agree g') : g'.Agree g :=
  ⟨h.customJobs.symm, h.preActivation.symm, h.activation.symm, h.agent.symm,
    h.safeOutputs.symm⟩

/-- A job other than the safe outputs job comes from the same place in both cases. -/
theorem origin (hg : c.Generates ctx g) (h : g.Agree g') (hrunner : ctx'.runner = ctx.runner)
    (hname : job.name ≠ Names.safeOutputsJob) (horigin : g.Origin ctx job) :
    g'.Origin ctx' job := by
  cases horigin with
  | preActivation hpre => exact .preActivation (h.preActivation.trans hpre)
  | activation hjob => exact .activation ((congrArg _ h.activation).trans hjob)
  | agent => exact h.agent ▸ .agent
  | custom hcustom hjob =>
      refine .custom (h.customJobs ▸ hcustom) ?_
      rw [hrunner, h.activation]
      exact hjob
  | safeOutputs hjob => exact absurd (hg.safeOutputs_place hjob).1 hname

end Generated.Agree

/-- **Tokens stay in the safe outputs job.** If two workflows that differ in their tokens only
are compiled, by the engine of the workflow and with the same options and look-up, then the
pipelines have jobs with the same names, and all of these are equal but for the safe outputs
job. -/
theorem jobs_eq_of_withoutTokens {w w' : Workflow} {sourceStem : Option String}
    {p p' : Pipeline} (hengine : c.engine = none) (hw : w.withoutTokens = w'.withoutTokens)
    (hp : c.compileFrom w sourceStem = .ok p) (hp' : c.compileFrom w' sourceStem = .ok p') :
    p.jobs.names = p'.jobs.names ∧
      ∀ name, name ≠ Names.safeOutputsJob → p.jobs.get? name = p'.jobs.get? name := by
  obtain ⟨g, hg, hgraph, -, -⟩ := compileFrom_eq_ok_iff.mp hp
  obtain ⟨g', hg', hgraph', -, -⟩ := compileFrom_eq_ok_iff.mp hp'
  have hctx : (c.context w sourceStem).withoutTokens = (c.context w' sourceStem).withoutTokens :=
    congrArg (c.context · sourceStem) hw
  have hrunner : (c.context w' sourceStem).runner = (c.context w sourceStem).runner := by
    rw [← Context.runner_withoutTokens, ← hctx, Context.runner_withoutTokens]
  have hagree : g.Agree g' := hg.agree hengine hg' hctx
  have hmem : ∀ job : Job, job.name ≠ Names.safeOutputsJob →
      (job ∈ p.jobs.members ↔ job ∈ p'.jobs.members) := fun job hname => by
    rw [mem_members_of_assemble hgraph, mem_members_of_assemble hgraph']
    exact ⟨hagree.origin hg hrunner hname, hagree.symm.origin hg' hrunner.symm hname⟩
  refine ⟨Dictionary.keys_eq_of_mem_iff fun name => ?_, fun name hname => Option.ext fun job => ?_⟩
  · change name ∈ p.jobs.names ↔ name ∈ p'.jobs.names
    simp only [JobGraph.mem_names]
    by_cases hname : name = Names.safeOutputsJob
    · simp only [hname, mem_members_of_assemble hgraph, mem_members_of_assemble hgraph']
      rw [hg.exists_safeOutputs_iff, hg'.exists_safeOutputs_iff, hagree.safeOutputs]
    · refine exists_congr fun job => and_congr_left fun hjob => hmem job (hjob ▸ hname)
  · rw [JobGraph.get?_eq_some_iff, JobGraph.get?_eq_some_iff]
    exact and_congr_left fun hjob => hmem job (hjob ▸ hname)

/-! ### A workflow with tokens -/

/-- The settings of a workflow whose agent may ask for an issue. -/
def postingOutputs (token : String) : SafeOutputs :=
  { SafeOutputs.empty.insert .createIssue { OutputSettings.default with githubToken := some token }
    with githubToken := some token }

/-- A workflow with a token in each place. -/
def posting (token : String) : Workflow :=
  { Workflow.named "report" with
    triggers := .ofList [("schedule", .null)]
    safeOutputs := some (postingOutputs token)
    githubToken := some token }

/-- Without the tokens the settings are the default ones of an issue. -/
theorem withoutTokens_postingOutputs (token : String) :
    (postingOutputs token).withoutTokens = SafeOutputs.empty.insert .createIssue .default := by
  have houtputs : ∀ kind, ((postingOutputs token).outputs kind).map (·.withoutToken) =
      (SafeOutputs.empty.insert .createIssue .default).outputs kind := by
    intro kind
    cases kind <;> rfl
  simp only [SafeOutputs.withoutTokens, houtputs]
  rfl

/-- Two such workflows differ in their tokens only. -/
theorem withoutTokens_posting (token token' : String) :
    (posting token).withoutTokens = (posting token').withoutTokens := by
  simp only [posting, Workflow.withoutTokens, Option.map_some, withoutTokens_postingOutputs]

/-- The handlers get the settings of an issue, and no token. -/
theorem handlerConfig_postingOutputs (token : String) :
    (postingOutputs token).handlerConfig [.createIssue] =
      "\x7b\"create_issue\":\x7b\"max\":1\x7d\x7d" := by
  rw [← SafeOutputs.handlerConfig_withoutTokens, withoutTokens_postingOutputs]
  decide +kernel

/-- The safe outputs job of such a workflow. -/
def postingJob (token : String) : Job :=
  let ctx := running.context (posting token) none
  let s := postingOutputs token
  (((Dispatch.base ctx s false).step (Dispatch.downloadOutputStep
      "actions/download-artifact@11bd719 # v5.0.0")).step
    (Dispatch.sharedStep s [.createIssue] false token "actions/github-script@11bd719 # v8")).output
      "processed_count" (Activation.stepOutput Dispatch.sharedStepId "processed_count")

/-- What is generated from such a workflow. -/
def posted (token : String) : Generated :=
  let w := posting token
  let ctx := running.context w none
  ⟨[], none, ⟨none, none⟩,
    Agent.published (postingOutputs token) "actions/github-script@11bd719 # v8"
      "actions/upload-artifact@11bd719 # v4.6.2"
      (Agent.core ctx ⟨none, none⟩ [] false (w.engine.steps w) (.shorthand .readAll)
        "actions/checkout@11bd719 # v5.0.0"),
    some (postingJob token)⟩

/-- The jobs of such a workflow, stage by stage. -/
theorem generates_posted (token : String) :
    running.Generates (running.context (posting token) none) (posted token) :=
  ⟨rfl, rfl, rfl, rfl, rfl⟩

/-- Issues are the only kind of such a workflow. -/
theorem kinds_postingOutputs (token : String) :
    (postingOutputs token).kinds = [.createIssue] := by
  rw [← SafeOutputs.kinds_withoutTokens, withoutTokens_postingOutputs]
  decide

/-- The step that sets up the collection has no template. -/
theorem plain_setupStep_posting (token : String) :
    (Agent.setupStep (postingOutputs token)).Plain := by
  have hconfig := handlerConfig_postingOutputs token
  rw [← kinds_postingOutputs token] at hconfig
  refine ⟨(by decide : '$' ∉ "Setup safe outputs".toList), nofun, nofun, ?_, ?_⟩
  · rw [Agent.setupStep, hconfig]
    decide
  · rintro _ ⟨⟩
    exact mt Reference.utf8EncodeChar_subset (by decide)

/-- The agent job refers to nothing. -/
theorem covered_posted_agent (token : String) : (posted token).agent.Covered := by
  refine covered_agent_of_plain (generates_posted token) rfl rfl fun s hs => ?_
  obtain rfl : postingOutputs token = s := Option.some.inj hs
  exact plain_setupStep_posting token

/-- The handler has no template, unless the token brings one. -/
theorem plain_sharedStep_posting {token : String} (htoken : '$' ∉ token.toList) :
    (Dispatch.sharedStep (postingOutputs token) [.createIssue] false token
      "actions/github-script@11bd719 # v8").Plain := by
  have hrest : ∀ e ∈ [("script", Names.handlerScript "safe_output_handler_manager.cjs"),
      ("GH_AW_SAFE_OUTPUTS_HANDLER_CONFIG", "\x7b\"create_issue\":\x7b\"max\":1\x7d\x7d")],
      '$' ∉ e.1.toList ∧ '$' ∉ e.2.toList := by decide
  refine ⟨(by decide : '$' ∉ "Process safe outputs".toList), ?_, ?_, ?_, nofun⟩
  · rintro _ ⟨⟩
    decide
  · rintro _ ⟨⟩
    decide +kernel
  · intro e he
    rw [Dispatch.sharedStep, handlerConfig_postingOutputs] at he
    rcases List.mem_cons.mp he with rfl | he
    · exact ⟨(by decide : '$' ∉ "github-token".toList), htoken⟩
    · exact hrest e he

/-- The safe outputs job refers to the agent job only. -/
theorem covered_postingJob {token : String} (htoken : '$' ∉ token.toList) :
    (postingJob token).Covered := by
  have hsteps : ∀ step ∈ [Dispatch.downloadOutputStep "actions/download-artifact@11bd719 # v5.0.0",
      Dispatch.sharedStep (postingOutputs token) [.createIssue] false token
        "actions/github-script@11bd719 # v8"], step.Plain :=
    List.forall_mem_cons.mpr ⟨Dispatch.plain_downloadOutputStep _,
      List.forall_mem_singleton.mpr (plain_sharedStep_posting htoken)⟩
  refine Job.covered_of_plain rfl hsteps ?_ ?_
  · change ∀ condition ∈ [Clause.agentCompleted.render,
      Dispatch.anyOutput Clause.safeOutputType [.createIssue]],
      ∀ name ∈ (Reference.needsReferences condition).toList, name ∈ [Names.agentJob]
    decide +kernel
  · change ∀ text ∈ ["actions/download-artifact@11bd719 # v5.0.0",
      "actions/github-script@11bd719 # v8"] ++ ((Dictionary.empty.insert "processed_count"
        (Activation.stepOutput Dispatch.sharedStepId "processed_count")).values ++
        (Dictionary.ofList
          [("GH_AW_WORKFLOW_NAME", "report"), ("GH_AW_AGENT_OUTPUT", Agent.outputFile)]).values ++
        (none : Option String).toList),
      (Reference.templateReferences text).toList = []
    decide

/-- Such a workflow is compiled, and its pipeline has the jobs that are generated from it. -/
theorem exists_compileFrom_posting {token : String} (htoken : '$' ∉ token.toList) :
    ∃ p, running.compileFrom (posting token) none = .ok p ∧ ∀ job, job ∈ p.jobs.members ↔
      (posted token).Origin (running.context (posting token) none) job := by
  refine exists_compileFrom (generates_posted token) rfl fun job horigin => ?_
  cases horigin with
  | preActivation h => cases h
  | activation h => cases h
  | agent => exact covered_posted_agent token
  | custom h _ => cases h
  | safeOutputs h =>
      cases h
      exact covered_postingJob htoken

/-- Two workflows with different tokens have the same agent job. -/
theorem jobs_eq_posting :
    ∃ p p', running.compileFrom (posting "first") none = .ok p ∧
      running.compileFrom (posting "second") none = .ok p' ∧
      p.jobs.names = p'.jobs.names ∧
      ∀ name, name ≠ Names.safeOutputsJob → p.jobs.get? name = p'.jobs.get? name := by
  obtain ⟨p, hp, -⟩ := exists_compileFrom_posting (show '$' ∉ "first".toList by decide)
  obtain ⟨p', hp', -⟩ := exists_compileFrom_posting (show '$' ∉ "second".toList by decide)
  obtain ⟨hnames, hjobs⟩ := jobs_eq_of_withoutTokens rfl (withoutTokens_posting _ _) hp hp'
  exact ⟨p, p', hp, hp', hnames, hjobs⟩

end Compiler

end AgentPipeline
