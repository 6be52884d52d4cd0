import AgentPipeline.Pipeline.Activation
import AgentPipeline.Pipeline.Prompt

/-!
# The agent job

The agent job checks out the repository, writes the prompt, runs the author's steps, and
then runs the agent. If the agent may ask for outputs, further steps tell it which ones,
collect what it asks for, and publish that and, for outputs that change files, a patch.

The job needs the activation job, and each custom job that the prompt, the author's steps
or its own condition refer to; nothing else is a job that they can refer to, except for the
pre-activation job. In strict mode its permissions may not include write access.

## Main definitions

* `Engine.steps`: the steps by which an engine runs the agent.
* `Agent.referencedJobs`: the jobs that the agent job refers to.
* `Agent.build`: the agent job of a workflow.
-/

namespace AgentPipeline

namespace Engine

/-- The command line that runs the agent. -/
def commandLine (e : Engine) : String :=
  e.command.getD (e.id ++ " \"$(cat \"$GH_AW_PROMPT\")\"")

/-- The steps by which an engine runs the agent of a workflow. -/
def steps (e : Engine) (w : Workflow) : List Step :=
  [{ name := "Execute " ++ e.id ++ " agent"
     id := some "agentic_execution"
     env :=
      [("GH_AW_PROMPT", Names.promptPath)] ++
        (if w.hasSafeOutputs then [("GH_AW_SAFE_OUTPUTS", Names.safeOutputsFile)] else []) ++
        e.env.entries
     run := some e.commandLine }]

end Engine

namespace Agent

/-! ### Needs -/

/-- The jobs that a step of the author refers to. -/
def stepReferences (v : Yaml.Value) : NameSet :=
  let s := JobStep.authored v
  (Reference.templateReferences s.render).union
    ((s.condition.map Reference.needsReferences).getD .empty)

/-- The jobs that the prompt, the condition and the author's steps refer to. -/
def references (w : Workflow) (condition : Option String) : NameSet :=
  w.steps.foldl (fun names v => names.union (stepReferences v))
    ((Reference.templateReferences w.markdown).union
      ((condition.map Reference.needsReferences).getD .empty))

/-- The custom jobs, and the pre-activation job if there is one, that the agent job refers
to. -/
def referencedJobs (w : Workflow) (condition : Option String) (customJobs : List CustomJob)
    (hasPreActivation : Bool) : List String :=
  (references w condition).toList.filter fun name =>
    customJobs.any (·.name == name) ||
      (hasPreActivation && name == Names.preActivationJob)

/-- The jobs that the agent job needs. -/
def needs (hasActivation : Bool) (referenced : List String) : List String :=
  referenced.foldl Job.addName (if hasActivation then [Names.activationJob] else [])

/-! ### Steps -/

/-- The step that checks out the repository. -/
def checkoutStep (checkoutAction : String) : Step :=
  { name := "Checkout repository"
    uses := some checkoutAction
    inputs := [("persist-credentials", "false")] }

/-- The step that tells the agent what it may ask for. -/
def setupStep (s : SafeOutputs) : Step :=
  { name := "Setup safe outputs"
    env :=
      [("GH_AW_SAFE_OUTPUTS", Names.safeOutputsFile),
        ("GH_AW_SAFE_OUTPUTS_CONFIG", s.handlerConfig s.kinds)]
    run := some
      ("mkdir -p \"$(dirname \"$GH_AW_SAFE_OUTPUTS\")\"\n" ++
        "touch \"$GH_AW_SAFE_OUTPUTS\"\n" ++
        "echo \"$GH_AW_SAFE_OUTPUTS_CONFIG\" > " ++
        "\"$(dirname \"$GH_AW_SAFE_OUTPUTS\")/config.json\"") }

/-- The step that writes the prompt. -/
def promptStep (markdown : String) : Step :=
  { name := "Create prompt"
    env := [("GH_AW_PROMPT", Names.promptPath)]
    run := some (Prompt.script markdown) }

/-- The file that holds what the agent asked for. -/
def outputFile : String := Names.agentOutputDir ++ Names.agentOutputArtifact

/-- The step that collects what the agent asked for. -/
def collectStep (s : SafeOutputs) (scriptAction : String) : Step :=
  { name := "Ingest agent output"
    id := some "collect_output"
    uses := some scriptAction
    env :=
      [("GH_AW_SAFE_OUTPUTS", Names.safeOutputsFile),
        ("GH_AW_ALLOWED_SAFE_OUTPUTS", ",".intercalate (s.kinds.map (·.outputType))),
        ("GH_AW_AGENT_OUTPUT", outputFile)]
    inputs := [("script", Names.handlerScript "collect_ndjson_output.cjs")] }

/-- The step that publishes what the agent asked for. -/
def uploadOutputStep (uploadAction : String) : Step :=
  { name := "Upload agent output"
    condition := some "always()"
    uses := some uploadAction
    inputs :=
      [("name", Names.agentOutputArtifact), ("path", outputFile),
        ("if-no-files-found", "warn")] }

/-- The step that makes a patch of what the agent changed. -/
def patchStep : Step :=
  { name := "Generate git patch"
    id := some "generate_patch"
    condition := some "always()"
    env := [("GH_AW_PATCH_PATH", Names.patchPath)]
    run := some
      ("git add -A\n" ++
        "if git diff --cached --quiet HEAD; then\n" ++
        "  echo \"has_patch=false\" >> \"$GITHUB_OUTPUT\"\n" ++
        "else\n" ++
        "  git diff --cached HEAD > \"$GH_AW_PATCH_PATH\"\n" ++
        "  echo \"has_patch=true\" >> \"$GITHUB_OUTPUT\"\n" ++
        "fi") }

/-- The step that publishes the patch. -/
def uploadPatchStep (uploadAction : String) : Step :=
  { name := "Upload git patch"
    condition := some "steps.generate_patch.outputs.has_patch == 'true'"
    uses := some uploadAction
    inputs :=
      [("name", Names.patchArtifact), ("path", Names.patchPath),
        ("if-no-files-found", "ignore")] }

/-- The job with the steps that collect and publish what the agent asked for. -/
def addCollection (s : SafeOutputs) (scriptAction uploadAction : String) (job : Job) : Job :=
  (((job.step (collectStep s scriptAction)).step (uploadOutputStep uploadAction)).output
    "output" (Activation.stepOutput "collect_output" "output")).output
    "output_types" (Activation.stepOutput "collect_output" "output_types")

/-- The job with the steps that make and publish a patch. -/
def addPatch (uploadAction : String) (job : Job) : Job :=
  ((job.step patchStep).step (uploadPatchStep uploadAction)).output
    "has_patch" (Activation.stepOutput "generate_patch" "has_patch")

/-- The job with the steps behind the agent. -/
def addPublication (ctx : Context) (s : SafeOutputs) (job : Job) :
    Except CompileError Job := do
  let scriptAction ← ctx.pin Names.scriptAction
  let uploadAction ← ctx.pin Names.uploadAction
  let job := addCollection s scriptAction uploadAction job
  pure (if s.kinds.any (·.requiresWorkingTree) then addPatch uploadAction job else job)

/-! ### The job -/

/-- The permissions of the agent job. In strict mode write access is an error. -/
def permissions (ctx : Context) : Except CompileError Permissions :=
  let p := ctx.workflow.permissions.getD (.shorthand .readAll)
  match ctx.strict, p.writeScopes with
  | true, scope :: _ => .error (.config (.writePermissionInStrictMode scope.name))
  | _, _ => .ok p

/-- The steps up to the agent, and the agent's own ones. -/
def mainSteps (w : Workflow) (checkoutAction : String) (engineSteps : List Step) :
    List JobStep :=
  [.generated (checkoutStep checkoutAction)] ++
    (w.outputs.map fun s => JobStep.generated (setupStep s)).toList ++
    [.generated (promptStep w.markdown)] ++ w.steps.map .authored ++
    engineSteps.map .generated

/-- The agent job of a workflow whose agent runs by the given steps. -/
def build (ctx : Context) (activation : Activation) (customJobs : List CustomJob)
    (hasPreActivation : Bool) (engineSteps : List Step) : Except CompileError Job := do
  let w := ctx.workflow
  let condition := activation.agentCondition.map (·.render)
  let permissions ← permissions ctx
  let checkoutAction ← ctx.pin Names.checkoutAction
  let job : Job :=
    { name := Names.agentJob
      runsOn := ctx.runner
      needs :=
        needs activation.job.isSome (referencedJobs w condition customJobs hasPreActivation)
      condition
      permissions := some permissions
      timeoutMinutes := w.timeoutMinutes
      environment := w.environment
      steps := mainSteps w checkoutAction engineSteps }
  match w.outputs with
  | some s => addPublication ctx s job
  | none => pure job

end Agent

end AgentPipeline
