/-!
# Names of the generated pipeline

The jobs, outputs, events, files and actions that the parts of a generated pipeline know
each other by.
-/

namespace AgentPipeline.Names

/-! ### Jobs -/

/-- The job that checks roles, the deadline and the skip queries. -/
def preActivationJob : String := "pre_activation"

/-- The job in front of the agent. -/
def activationJob : String := "activation"

/-- The job that runs the agent. -/
def agentJob : String := "agent"

/-- The job that acts on what the agent asked for. -/
def safeOutputsJob : String := "safe_outputs"

/-- The names that a workflow's own jobs may not take. -/
def reservedJobs : List String :=
  [preActivationJob, activationJob, agentJob, safeOutputsJob]

/-- The output by which the pre-activation job lets the activation job go ahead. -/
def activatedOutput : String := "activated"

/-! ### Events and roles -/

/-- Events that nobody in particular causes, and that need no membership check. -/
def safeEvents : List String := ["schedule", "merge_group"]

/-- The roles that may start a workflow that names none. -/
def defaultRoles : List String := ["admin", "maintainer", "write"]

/-- Events whose item can carry a reaction. -/
def reactionEvents : List String :=
  ["issues", "issue_comment", "pull_request", "pull_request_review_comment", "discussion",
    "discussion_comment"]

/-- Events whose item is an issue that can be locked. -/
def lockableEvents : List String := ["issues", "issue_comment"]

/-! ### Defaults and secrets -/

/-- The runner of a workflow that names none. -/
def defaultRunner : String := "ubuntu-latest"

/-- The token of the safe output handlers when none is configured. -/
def defaultSafeOutputsToken : String :=
  "$\x7b\x7b secrets.GH_AW_GITHUB_TOKEN || secrets.GITHUB_TOKEN \x7d\x7d"

/-- The token of the project handler when none is configured. -/
def defaultProjectToken : String :=
  "$\x7b\x7b secrets.GH_AW_PROJECT_GITHUB_TOKEN \x7d\x7d"

/-- The token with which the control jobs read. -/
def githubToken : String := "$\x7b\x7b secrets.GITHUB_TOKEN \x7d\x7d"

/-! ### Files on the runner -/

/-- The directory of scratch files. -/
def runtimeDir : String := "/tmp/gh-aw"

/-- The directory of the handler scripts. -/
def actionsDir : String := "/tmp/gh-aw/actions"

/-- The file that holds the prompt. -/
def promptPath : String := "/tmp/gh-aw/aw-prompts/prompt.txt"

/-- The file in which the agent asks for outputs. -/
def safeOutputsFile : String := "/tmp/gh-aw/safeoutputs/outputs.jsonl"

/-- The artifact that carries the agent's output. -/
def agentOutputArtifact : String := "agent_output.json"

/-- The directory of the agent's output. -/
def agentOutputDir : String := "/tmp/gh-aw/safeoutputs/"

/-- The artifact that carries the agent's patch. -/
def patchArtifact : String := "aw.patch"

/-- The file that holds the agent's patch. -/
def patchPath : String := "/tmp/gh-aw/aw.patch"

/-! ### Actions -/

/-- The action that checks out the repository, and its version. -/
def checkoutAction : String × String := ("actions/checkout", "v5.0.0")

/-- The action that runs a script, and its version. -/
def scriptAction : String × String := ("actions/github-script", "v8")

/-- The action that uploads an artifact, and its version. -/
def uploadAction : String × String := ("actions/upload-artifact", "v4.6.2")

/-- The action that downloads an artifact, and its version. -/
def downloadAction : String × String := ("actions/download-artifact", "v5.0.0")

/-- The script of a step that runs one of the handlers. -/
def handlerScript (file : String) : String :=
  "const \x7b main \x7d = require('" ++ actionsDir ++ "/" ++ file ++ "');\nawait main();"

end AgentPipeline.Names
