import AgentPipeline.Permission.Basic

/-!
# Kinds of safe outputs

A **safe output** is a side effect that the agent asks for and a separate job performs.
Each kind has a key in the configuration, a type by which the agent asks for it, a limit
on the number of items, a category that decides which step performs it, and the
permissions that this takes.

## Main definitions

* `OutputKind`, `OutputKind.all`: the kinds, in the order in which they are performed.
* `Category`: performed by the project handler, by the shared handler, or in a step of its
  own with a working tree.
-/

namespace AgentPipeline

/-- The kinds of safe outputs. -/
inductive OutputKind where
  | createProject | updateProject | copyProject | createProjectStatusUpdate
  | createIssue | createDiscussion | addComment | updateIssue | closeIssue | addLabels
  | createPullRequestReviewComment | createCodeScanningAlert | missingTool | noop
  | createPullRequest | pushToPullRequestBranch | uploadAsset
  deriving Repr, DecidableEq, Inhabited

/-- Which step performs a kind. -/
inductive Category where
  /-- the project handler, before everything else -/
  | project
  /-- the shared handler -/
  | message
  /-- a step of its own, with a working tree -/
  | workingTree
  deriving Repr, DecidableEq, Inhabited

namespace OutputKind

/-- All kinds, in the order in which they are performed. -/
def all : List OutputKind :=
  [.createProject, .updateProject, .copyProject, .createProjectStatusUpdate, .createIssue,
    .createDiscussion, .addComment, .updateIssue, .closeIssue, .addLabels,
    .createPullRequestReviewComment, .createCodeScanningAlert, .missingTool, .noop,
    .createPullRequest, .pushToPullRequestBranch, .uploadAsset]

/-- Every kind is listed. -/
theorem mem_all (k : OutputKind) : k ∈ all := by
  cases k <;> decide

/-- The key of a kind in the configuration. -/
def key : OutputKind → String
  | .createProject => "create-project"
  | .updateProject => "update-project"
  | .copyProject => "copy-project"
  | .createProjectStatusUpdate => "create-project-status-update"
  | .createIssue => "create-issue"
  | .createDiscussion => "create-discussion"
  | .addComment => "add-comment"
  | .updateIssue => "update-issue"
  | .closeIssue => "close-issue"
  | .addLabels => "add-labels"
  | .createPullRequestReviewComment => "create-pull-request-review-comment"
  | .createCodeScanningAlert => "create-code-scanning-alert"
  | .missingTool => "missing-tool"
  | .noop => "noop"
  | .createPullRequest => "create-pull-request"
  | .pushToPullRequestBranch => "push-to-pull-request-branch"
  | .uploadAsset => "upload-asset"

/-- The kind of a key. -/
def ofKey? (s : String) : Option OutputKind :=
  all.find? fun kind => kind.key == s

/-- The kind of a key, or the error for an unknown one. -/
def parse (s : String) : Except UnknownName OutputKind :=
  UnknownName.orElse "safe output type" s (ofKey? s)

/-- The type by which the agent asks for a kind: its key with underscores. -/
def outputType (kind : OutputKind) : String :=
  kind.key.map fun c => if c = '-' then '_' else c

/-- The number of items that are performed when no limit is configured; zero for any
number. -/
def defaultMax : OutputKind → Nat
  | .addLabels => 3
  | .createPullRequestReviewComment => 10
  | .updateProject => 10
  | .uploadAsset => 10
  | .createCodeScanningAlert => 0
  | .missingTool => 0
  | _ => 1

/-- Which step performs a kind. -/
def category : OutputKind → Category
  | .createProject => .project
  | .updateProject => .project
  | .copyProject => .project
  | .createProjectStatusUpdate => .project
  | .createPullRequest => .workingTree
  | .pushToPullRequestBranch => .workingTree
  | .uploadAsset => .workingTree
  | _ => .message

/-- Whether a kind is performed in a working tree. -/
def requiresWorkingTree (kind : OutputKind) : Bool :=
  kind.category == .workingTree

/-- Whether a kind is performed by the project handler. -/
def isProject (kind : OutputKind) : Bool :=
  kind.category == .project

/-- The permissions it takes to perform a kind. Project kinds act through a token of
their own. -/
def permissions : OutputKind → Permissions
  | .createIssue => .ofScopes [(.contents, .read), (.issues, .write)]
  | .updateIssue => .ofScopes [(.contents, .read), (.issues, .write)]
  | .closeIssue => .ofScopes [(.contents, .read), (.issues, .write)]
  | .createDiscussion => .ofScopes [(.contents, .read), (.discussions, .write)]
  | .addComment =>
    .ofScopes [(.contents, .read), (.issues, .write), (.pullRequests, .write),
      (.discussions, .write)]
  | .addLabels =>
    .ofScopes [(.contents, .read), (.issues, .write), (.pullRequests, .write)]
  | .createPullRequestReviewComment =>
    .ofScopes [(.contents, .read), (.pullRequests, .write)]
  | .createCodeScanningAlert =>
    .ofScopes [(.contents, .read), (.securityEvents, .write), (.actions, .read)]
  | .createPullRequest =>
    .ofScopes [(.contents, .write), (.issues, .write), (.pullRequests, .write)]
  | .pushToPullRequestBranch => .ofScopes [(.contents, .write), (.pullRequests, .write)]
  | .uploadAsset => .ofScopes [(.contents, .write)]
  | _ => .contentsRead

/-- The identifier of the step of a kind that has one of its own. -/
def stepId (kind : OutputKind) : String :=
  kind.outputType

end OutputKind

end AgentPipeline
