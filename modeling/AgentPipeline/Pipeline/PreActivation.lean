import AgentPipeline.Pipeline.Context
import AgentPipeline.Job.Basic
import AgentPipeline.Condition.Clause
import AgentPipeline.Time.Deadline

/-!
# The pre-activation job

Up to four checks decide whether a run goes on: that who started it has one of the roles,
that the deadline has not passed, and that the two skip queries match as they should. Each
check is a step that reports its result as an output. The job reports whether all checks
that are configured passed.

If the roles are the only thing to check, the job is skipped for events that need no such
check. A skipped job has no result, which the activation job takes for a passed check.

## Main definitions

* `Check`: a check, its step and the condition that it passed.
* `Workflow.needsRoleCheck`: whether the roles have to be checked.
* `PreActivation`, `PreActivation.build`: the job and whether it may be skipped.
-/

namespace AgentPipeline

/-- A check of the pre-activation job. -/
structure Check where
  name : String
  /-- the identifier of the step -/
  id : String
  /-- the output of the step that is `true` if the check passed -/
  output : String
  /-- the file of the handler -/
  script : String
  env : List (String × String)
  /-- whether the handler reads through a token -/
  readsWithToken : Bool
  deriving Repr, DecidableEq, Inhabited

namespace Check

/-- The inputs of the step of a check. -/
def inputs (c : Check) : List (String × String) :=
  (if c.readsWithToken then [("github-token", Names.githubToken)] else []) ++
    [("script", Names.handlerScript c.script)]

/-- The step of a check. -/
def step (c : Check) (scriptAction : String) : Step :=
  { name := c.name, id := some c.id, uses := some scriptAction, inputs := c.inputs,
    env := c.env }

/-- The check passed. -/
def passed (c : Check) : Condition :=
  Clause.stepOutputIs c.id c.output "true"

/-- The check that who started the run has one of the roles. -/
def membership (roles : Roles) : Check where
  name := "Check team membership for workflow"
  id := "check_membership"
  output := "is_team_member"
  script := "check_membership.cjs"
  env := [("GH_AW_REQUIRED_ROLES", ",".intercalate roles.members)]
  readsWithToken := false

/-- The check that a deadline has not passed. -/
def stopTime (workflow deadline : String) : Check where
  name := "Check stop-time limit"
  id := "check_stop_time"
  output := "stop_time_ok"
  script := "check_stop_time.cjs"
  env := [("GH_AW_STOP_TIME", deadline), ("GH_AW_WORKFLOW_NAME", workflow)]
  readsWithToken := false

/-- The check that a search has not too many matches. -/
def skipIfMatch (workflow : String) (query : SkipQuery) : Check where
  name := "Check skip-if-match query"
  id := "check_skip_if_match"
  output := "skip_check_ok"
  script := "check_skip_if_match.cjs"
  env :=
    [("GH_AW_SKIP_QUERY", query.query), ("GH_AW_WORKFLOW_NAME", workflow),
      ("GH_AW_SKIP_MAX_MATCHES", toString query.threshold)]
  readsWithToken := true

/-- The check that a search has enough matches. -/
def skipIfNoMatch (workflow : String) (query : SkipQuery) : Check where
  name := "Check skip-if-no-match query"
  id := "check_skip_if_no_match"
  output := "skip_no_match_check_ok"
  script := "check_skip_if_no_match.cjs"
  env :=
    [("GH_AW_SKIP_QUERY", query.query), ("GH_AW_WORKFLOW_NAME", workflow),
      ("GH_AW_SKIP_MIN_MATCHES", toString query.threshold)]
  readsWithToken := true

end Check

namespace Workflow

/-- Whether the roles have to be checked: they are restricted, and somebody in particular
causes one of the events. -/
def needsRoleCheck (w : Workflow) : Bool :=
  !w.roles.isUnrestricted &&
    w.triggers.keys.any fun event => !Names.safeEvents.contains event

/-- The checks besides that of the roles, where `deadline` is the moment that the deadline
means. -/
def gateChecks (w : Workflow) (deadline : Option String) : List Check :=
  (deadline.map (Check.stopTime w.name)).toList ++
    (w.skipIfMatch.map (Check.skipIfMatch w.name)).toList ++
    (w.skipIfNoMatch.map (Check.skipIfNoMatch w.name)).toList

/-- All checks of a workflow, in order. -/
def checks (w : Workflow) (deadline : Option String) : List Check :=
  (if w.needsRoleCheck then [Check.membership w.roles] else []) ++ w.gateChecks deadline

/-- The events for which the roles are not checked. A dispatch takes write access, so it
is among them if the default roles apply and let those in who have that. -/
def uncheckedEvents (w : Workflow) : List String :=
  Names.safeEvents ++
    (if w.roles.defaultIncludesWrite && w.hasTrigger "workflow_dispatch" then
      ["workflow_dispatch"]
    else [])

end Workflow

/-- A pre-activation job. -/
structure PreActivation where
  job : Job
  /-- whether the job is skipped for some events -/
  hasSkipCondition : Bool

namespace PreActivation

/-- The text of the conjunction of some conditions; empty for none. -/
def conjoined (conditions : List Condition) : String :=
  ((Condition.conjunction conditions).map (·.render)).getD ""

/-- The job that makes some checks. -/
def ofChecks (ctx : Context) (checks : List Check) (scriptAction : String) :
    PreActivation :=
  let w := ctx.workflow
  let skips := w.needsRoleCheck && checks.length == 1
  let job : Job :=
    { name := Names.preActivationJob
      runsOn := ctx.runner
      permissions := some .contentsRead
      steps := checks.map fun c => .generated (c.step scriptAction)
      condition :=
        if skips then some (conjoined (w.uncheckedEvents.map Clause.eventIsNot)) else none }
  ⟨job.output Names.activatedOutput
      (Reference.wrapTemplate (conjoined (checks.map Check.passed))),
    skips⟩

/-- The pre-activation job of a workflow, if there is anything to check. -/
def build (ctx : Context) : Except CompileError (Option PreActivation) := do
  let w := ctx.workflow
  let deadline ←
    match w.stopTime with
    | some value => some <$> (Deadline.resolve value ctx.now).mapError .config
    | none => pure none
  let checks := w.checks deadline
  if checks = [] then pure none
  else pure (some (ofChecks ctx checks (← ctx.pin Names.scriptAction)))

end PreActivation

end AgentPipeline
