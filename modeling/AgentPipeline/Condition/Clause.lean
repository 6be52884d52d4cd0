import AgentPipeline.Condition.Tree
import AgentPipeline.Names

/-!
# Generated clauses

The conditions that the generated jobs and steps are gated by, built from the forms of
`Condition`.
-/

namespace AgentPipeline.Clause

open Condition

/-- Equality of two conditions' values. -/
def equals (left right : Condition) : Condition :=
  .compare left .eq right

/-- Difference of two conditions' values. -/
def differs (left right : Condition) : Condition :=
  .compare left .ne right

/-- The run was started by this event. -/
def eventIs (event : String) : Condition :=
  equals (.property "github.event_name") (.string event)

/-- The run was not started by this event. -/
def eventIsNot (event : String) : Condition :=
  differs (.property "github.event_name") (.string event)

/-- The run was started by one of these events. -/
def anyEvent (events : List String) : Condition :=
  .disjunction (events.map eventIs) false

/-- A needed job ended with this result. -/
def jobResultIs (job result : String) : Condition :=
  equals (.property ("needs." ++ job ++ ".result")) (.string result)

/-- A needed job did not end with this result. -/
def jobResultIsNot (job result : String) : Condition :=
  differs (.property ("needs." ++ job ++ ".result")) (.string result)

/-- An output of a needed job has this value. -/
def jobOutputIs (job output value : String) : Condition :=
  equals (.property ("needs." ++ job ++ ".outputs." ++ output)) (.string value)

/-- An output of a step of the same job has this value. -/
def stepOutputIs (step output value : String) : Condition :=
  equals (.property ("steps." ++ step ++ ".outputs." ++ output)) (.string value)

/-- The agent asked for an output of this type. -/
def outputTypePresent (type : String) : Condition :=
  .call "contains"
    [.property ("needs." ++ Names.agentJob ++ ".outputs.output_types"), .string type]

/-- The run was not cancelled and the agent was not skipped. -/
def agentCompleted : Condition :=
  .and (.not (.call "cancelled" [])) (jobResultIsNot Names.agentJob "skipped")

/-- The agent completed and asked for an output of this type. -/
def safeOutputType (type : String) : Condition :=
  .and agentCompleted (outputTypePresent type)

/-- A `workflow_run` event comes from this repository, not from a fork or another one. -/
def workflowRunFromHere : Condition :=
  .or (eventIsNot "workflow_run")
    (.and
      (equals (.property "github.event.workflow_run.repository.id")
        (.property "github.repository_id"))
      (.not (.property "github.event.workflow_run.repository.fork")))

end AgentPipeline.Clause
