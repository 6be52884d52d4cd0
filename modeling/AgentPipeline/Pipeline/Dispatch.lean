import AgentPipeline.Pipeline.Agent

/-!
# The safe outputs job

One job performs what the agent asked for. It downloads the agent's output, prepares a
working tree if a kind needs one, runs the project handler, runs the shared handler, and
then runs one step for each kind that has a step of its own. A step only runs if the agent
asked for one of its kinds, and the job has the permissions that its kinds take.

## Main definitions

* `Dispatch.build`: the safe outputs job of a workflow.
-/

namespace AgentPipeline.Dispatch

/-- The text of the disjunction of a clause over the types of some kinds. -/
def anyOutput (clause : String → Condition) (kinds : List OutputKind) : String :=
  (Condition.disjunction (kinds.map fun kind => clause kind.outputType) false).render

/-- The permissions that some kinds take together. -/
def permissions (kinds : List OutputKind) : Permissions :=
  kinds.foldl (fun p kind => p.merge kind.permissions) .empty

/-- The environment of the job. -/
def environment (w : Workflow) (s : SafeOutputs) : Dictionary String :=
  .ofList
    ([("GH_AW_WORKFLOW_NAME", w.name), ("GH_AW_AGENT_OUTPUT", Agent.outputFile)] ++
      (if s.staged then [("GH_AW_SAFE_OUTPUTS_STAGED", "true")] else []))

/-! ### Steps -/

/-- The step that downloads the agent's output. -/
def downloadOutputStep (downloadAction : String) : Step :=
  { name := "Download agent output artifact"
    uses := some downloadAction
    inputs := [("name", Names.agentOutputArtifact), ("path", Names.agentOutputDir)]
    continueOnError := true }

/-- The step that downloads the agent's patch. -/
def downloadPatchStep (condition downloadAction : String) : Step :=
  { name := "Download patch artifact"
    condition := some condition
    uses := some downloadAction
    inputs := [("name", Names.patchArtifact), ("path", Names.runtimeDir ++ "/")]
    continueOnError := true }

/-- The step that checks out the repository with its history. -/
def checkoutStep (condition token checkoutAction : String) : Step :=
  { name := "Checkout repository"
    condition := some condition
    uses := some checkoutAction
    inputs := [("token", token), ("persist-credentials", "false"), ("fetch-depth", "0")] }

/-- The step that prepares the working tree for pushes. -/
def credentialsStep (condition token : String) : Step :=
  { name := "Configure git credentials"
    condition := some condition
    env :=
      [("REPO_NAME", Reference.wrapTemplate "github.repository"),
        ("SERVER_URL", Reference.wrapTemplate "github.server_url"), ("GIT_TOKEN", token)]
    run := some
      ("git config --global user.email " ++
        "\"github-actions[bot]@users.noreply.github.com\"\n" ++
        "git config --global user.name \"github-actions[bot]\"\n" ++
        "SERVER_URL_STRIPPED=\"$\x7bSERVER_URL#https://\x7d\"\n" ++
        "git remote set-url origin \"https://x-access-token:$\x7bGIT_TOKEN\x7d" ++
        "@$\x7bSERVER_URL_STRIPPED\x7d/$\x7bREPO_NAME\x7d.git\"") }

/-- The identifier of the step of the project handler. -/
def projectStepId : String := "process_project_safe_outputs"

/-- The identifier of the step of the shared handler. -/
def sharedStepId : String := "process_safe_outputs"

/-- The map of temporary projects that the project handler leaves. -/
def projectMap : String := Activation.stepOutput projectStepId "temporary_project_map"

/-- The step of the project handler. -/
def projectStep (s : SafeOutputs) (kinds : List OutputKind) (token scriptAction : String) :
    Step :=
  { name := "Process project safe outputs"
    id := some projectStepId
    condition := some (anyOutput Clause.safeOutputType kinds)
    uses := some scriptAction
    env := [("GH_AW_SAFE_OUTPUTS_PROJECT_HANDLER_CONFIG", s.handlerConfig kinds)]
    inputs :=
      [("github-token", token),
        ("script", Names.handlerScript "safe_output_project_handler_manager.cjs")] }

/-- The step of the shared handler. -/
def sharedStep (s : SafeOutputs) (kinds : List OutputKind) (hasProjects : Bool)
    (token scriptAction : String) : Step :=
  { name := "Process safe outputs"
    id := some sharedStepId
    condition := some (anyOutput Clause.safeOutputType kinds)
    uses := some scriptAction
    env :=
      [("GH_AW_SAFE_OUTPUTS_HANDLER_CONFIG", s.handlerConfig kinds)] ++
        (if hasProjects then [("GH_AW_TEMPORARY_PROJECT_MAP", projectMap)] else [])
    inputs :=
      [("github-token", token),
        ("script", Names.handlerScript "safe_output_handler_manager.cjs")] }

/-- The name and the handler of the step of a kind that has one of its own. -/
def ownStepNames : OutputKind → String × String
  | .createPullRequest => ("Create pull request", "create_pull_request.cjs")
  | .pushToPullRequestBranch =>
    ("Push to pull request branch", "push_to_pull_request_branch.cjs")
  | _ => ("Upload assets", "upload_assets.cjs")

/-- The step of a kind that has one of its own. -/
def ownStep (s : SafeOutputs) (kind : OutputKind) (token scriptAction : String) : Step :=
  { name := (ownStepNames kind).1
    id := some kind.stepId
    condition := some (Clause.safeOutputType kind.outputType).render
    uses := some scriptAction
    env :=
      [("GH_AW_SAFE_OUTPUT_CONFIG", s.handlerConfig [kind])] ++
        (if kind = .createPullRequest then
          [("GH_AW_BASE_BRANCH", Reference.wrapTemplate "github.ref_name")]
        else [])
    inputs :=
      [("github-token", token), ("script", Names.handlerScript (ownStepNames kind).2)] }

/-! ### The job -/

/-- The job before any step. -/
def base (ctx : Context) (s : SafeOutputs) (hasActivation : Bool) : Job :=
  { name := Names.safeOutputsJob
    runsOn := s.runsOn.getD ctx.runner
    needs := Names.agentJob :: (if hasActivation then [Names.activationJob] else [])
    condition := some Clause.agentCompleted.render
    permissions := some (permissions s.kinds)
    env := environment ctx.workflow s }

/-- The job with the steps that prepare a working tree for some kinds. -/
def addWorkingTree (ctx : Context) (s : SafeOutputs) (kinds : List OutputKind) (job : Job) :
    Except CompileError Job := do
  let condition := anyOutput Clause.outputTypePresent kinds
  let token := s.standardToken ctx.workflow.githubToken
  let downloadAction ← ctx.pin Names.downloadAction
  let checkoutAction ← ctx.pin Names.checkoutAction
  pure (job.addSteps
    [.generated (downloadPatchStep condition downloadAction),
      .generated (checkoutStep condition token checkoutAction),
      .generated (credentialsStep condition token)])

/-- The job with the step of the project handler for some kinds. -/
def addProjects (ctx : Context) (s : SafeOutputs) (kinds : List OutputKind) (job : Job) :
    Except CompileError Job := do
  let scriptAction ← ctx.pin Names.scriptAction
  let token ← (s.projectToken ctx.strict).mapError .config
  pure ((job.step (projectStep s kinds token scriptAction)).output "temporary_project_map"
    projectMap)

/-- The job with the step of the shared handler for some kinds. -/
def addShared (ctx : Context) (s : SafeOutputs) (kinds : List OutputKind)
    (hasProjects : Bool) (job : Job) : Except CompileError Job := do
  let scriptAction ← ctx.pin Names.scriptAction
  let token := s.standardToken ctx.workflow.githubToken
  pure ((job.step (sharedStep s kinds hasProjects token scriptAction)).output
    "processed_count" (Activation.stepOutput sharedStepId "processed_count"))

/-- The job with the step of a kind that has one of its own. -/
def addOwn (ctx : Context) (s : SafeOutputs) (job : Job) (kind : OutputKind) :
    Except CompileError Job := do
  let scriptAction ← ctx.pin Names.scriptAction
  let token := s.kindToken kind ctx.workflow.githubToken
  pure (job.step (ownStep s kind token scriptAction))

/-- The job for the kinds that are configured. -/
def ofSettings (ctx : Context) (s : SafeOutputs) (hasActivation : Bool) :
    Except CompileError Job := do
  let downloadAction ← ctx.pin Names.downloadAction
  let job := (base ctx s hasActivation).step (downloadOutputStep downloadAction)
  let workingTree := s.kindsIn .workingTree
  let projects := s.kindsIn .project
  let messages := s.kindsIn .message
  let job ← if workingTree = [] then pure job else addWorkingTree ctx s workingTree job
  let job ← if projects = [] then pure job else addProjects ctx s projects job
  let job ← if messages = [] then pure job else addShared ctx s messages (projects ≠ []) job
  workingTree.foldlM (addOwn ctx s) job

/-- The safe outputs job of a workflow, if any kind is configured. -/
def build (ctx : Context) (hasActivation : Bool) : Except CompileError (Option Job) :=
  match ctx.workflow.outputs with
  | some s => some <$> ofSettings ctx s hasActivation
  | none => .ok none

end AgentPipeline.Dispatch
