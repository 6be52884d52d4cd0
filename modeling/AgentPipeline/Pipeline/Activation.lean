import AgentPipeline.Pipeline.PreActivation
import AgentPipeline.Pipeline.CustomJob
import AgentPipeline.Condition.Parser

/-!
# The activation job

The activation job stands in front of the agent whenever anything has to be decided or done
before the agent runs: the result of the pre-activation job, a condition of the workflow, a
reaction, a lock on an issue, or the check that a `workflow_run` event comes from here.

Its condition is the conjunction of the clauses that apply. The workflow's condition is one
of them if the job needs all jobs that it refers to; otherwise the condition moves to the
agent.

## Main definitions

* `Activation`: the job, and the condition that moves to the agent.
* `Activation.readCondition`: the condition of a workflow.
* `Activation.clauses`: the clauses of the job's condition.
* `Activation.build`: the activation of a workflow.
-/

namespace AgentPipeline

/-- The activation of a workflow. -/
structure Activation where
  job : Option Job
  /-- the condition of the workflow, if it gates the agent instead of the activation job -/
  agentCondition : Option Condition

instance : Inhabited Activation := ⟨⟨none, none⟩⟩

namespace Activation

/-- The condition that a text denotes, in the braces of a template or not. -/
def readCondition (text : String) : Except CompileError Condition :=
  (Condition.parse (Reference.unwrapTemplate text)).mapError .condition

/-- The members of a list of events that start the workflow. -/
def startingEvents (w : Workflow) (events : List String) : List String :=
  events.filter w.hasTrigger

/-- Whether there is an activation job. -/
def isNeeded (w : Workflow) (hasPreActivation : Bool) : Bool :=
  hasPreActivation || w.condition.isSome || w.reaction.isSome || w.lockForAgent ||
    w.hasTrigger "workflow_run"

/-- The names of the custom jobs that need the pre-activation job, in order. They make up a
set, since a job is not needed twice. -/
def gatedNames (customJobs : List CustomJob) : List String :=
  (NameSet.ofList ((customJobs.filter (·.dependsOn Names.preActivationJob)).map (·.name))).toList

/-- The jobs that the activation job needs: the pre-activation job, and the custom jobs
that need that job too. -/
def needs (hasPreActivation : Bool) (customJobs : List CustomJob) : List String :=
  if hasPreActivation then (gatedNames customJobs).foldl Job.addName [Names.preActivationJob]
  else []

/-- The pre-activation job lets the run go on. -/
def gateClause (pre : PreActivation) : Condition :=
  let activated :=
    Clause.jobOutputIs Names.preActivationJob Names.activatedOutput "true"
  if pre.hasSkipCondition then
    .or (Clause.jobResultIs Names.preActivationJob "skipped") activated
  else activated

/-- Whether a condition refers only to jobs of a list. -/
def isCovered (needs : List String) (condition : Condition) : Bool :=
  (Reference.needsReferences condition.render).toList.all needs.contains

/-- The clauses of the condition: the gate, the condition of the workflow, and the check of
`workflow_run` events. -/
def clauses (w : Workflow) (pre : Option PreActivation) (condition : Option Condition) :
    List Condition :=
  (pre.map gateClause).toList ++ condition.toList ++
    (if w.hasTrigger "workflow_run" then [Clause.workflowRunFromHere] else [])

/-! ### Steps -/

/-- The step that compares the ages of the workflow's files. -/
def timestampStep (ctx : Context) (scriptAction : String) : Step :=
  { name := "Check workflow file timestamps"
    id := some "check_workflow_timestamp"
    uses := some scriptAction
    env := [("GH_AW_WORKFLOW_FILE", ctx.fileStem ++ ".lock.yml")]
    inputs := [("script", Names.handlerScript "check_workflow_timestamp_api.cjs")] }

/-- The step that puts a reaction on the item of the event. -/
def reactionStep (w : Workflow) (reaction : String) (events : List String)
    (scriptAction : String) : Step :=
  { name := "Add " ++ reaction ++ " reaction to the triggering item"
    id := some "react"
    condition := some (Clause.anyEvent events).render
    uses := some scriptAction
    env := [("GH_AW_REACTION", reaction), ("GH_AW_WORKFLOW_NAME", w.name)]
    inputs := [("script", Names.handlerScript "add_reaction_and_edit_comment.cjs")] }

/-- The step that locks the issue of the event. -/
def lockStep (events : List String) (scriptAction : String) : Step :=
  { name := "Lock issue for agent workflow"
    id := some "lock-issue"
    condition := some (Clause.anyEvent events).render
    uses := some scriptAction
    inputs := [("script", Names.handlerScript "lock-issue.cjs")] }

/-- A reference to an output of a step. -/
def stepOutput (step output : String) : String :=
  Reference.wrapTemplate ("steps." ++ step ++ ".outputs." ++ output)

/-- The job with more permissions. -/
def addPermissions (job : Job) (scopes : List (Scope × Level)) : Job :=
  { job with
    permissions := some ((job.permissions.getD .empty).merge (.ofScopes scopes)) }

/-- The job with the step and the outputs of a reaction. -/
def addReaction (w : Workflow) (scriptAction : String) (job : Job) : Job :=
  match w.reaction, startingEvents w Names.reactionEvents with
  | some reaction, event :: events =>
    addPermissions
      ((((job.step (reactionStep w reaction (event :: events) scriptAction)).output
          "comment_id" (stepOutput "react" "comment-id")).output
          "comment_url" (stepOutput "react" "comment-url")).output
          "reaction_id" (stepOutput "react" "reaction-id"))
      [(.discussions, .write), (.issues, .write), (.pullRequests, .write)]
  | _, _ => job

/-- The job with the step and the output of a lock. -/
def addLock (w : Workflow) (scriptAction : String) (job : Job) : Job :=
  match w.lockForAgent, startingEvents w Names.lockableEvents with
  | true, event :: events =>
    addPermissions
      ((job.step (lockStep (event :: events) scriptAction)).output "issue_locked"
        (stepOutput "lock-issue" "locked"))
      [(.issues, .write)]
  | _, _ => job

/-! ### The job -/

/-- The activation job with the given needs and clauses. -/
def activationJob (ctx : Context) (needs : List String) (clauses : List Condition)
    (scriptAction : String) : Job :=
  let job : Job :=
    { name := Names.activationJob
      runsOn := ctx.runner
      needs
      condition := (Condition.conjunction clauses).map (·.render)
      permissions := some .contentsRead }
  addLock ctx.workflow scriptAction
    (addReaction ctx.workflow scriptAction (job.step (timestampStep ctx scriptAction)))

/-- The activation of a workflow. -/
def build (ctx : Context) (pre : Option PreActivation) (customJobs : List CustomJob) :
    Except CompileError Activation := do
  let w := ctx.workflow
  let condition ←
    match w.condition with
    | some text => some <$> readCondition text
    | none => pure none
  if !isNeeded w pre.isSome then pure ⟨none, none⟩
  else
    let needs := needs pre.isSome customJobs
    let kept := condition.filter (isCovered needs)
    let moved := condition.filter fun c => !isCovered needs c
    let scriptAction ← ctx.pin Names.scriptAction
    pure ⟨some (activationJob ctx needs (clauses w pre kept) scriptAction), moved⟩

end Activation

end AgentPipeline
