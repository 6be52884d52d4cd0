import AgentPipeline.SafeOutput.Settings

/-!
# Workflows

A workflow is what its author writes: the events that start it, who may start it and
when, the jobs and steps around the agent, the outputs the agent may ask for, and the
prompt.

## Main definitions

* `Roles`, `SkipQuery`, `Engine`: parts of a workflow.
* `Workflow`, with `hasTrigger`, `hasSafeOutputs`.
-/

namespace AgentPipeline

/-- Who may start a workflow. -/
inductive Roles where
  /-- the default roles -/
  | default
  /-- everybody -/
  | all
  /-- the members of these roles -/
  | custom (members : List String)
  deriving Repr, DecidableEq, Inhabited

namespace Roles

/-- The names of the roles. -/
def members : Roles → List String
  | .default => Names.defaultRoles
  | .all => ["all"]
  | .custom members => members

/-- Whether everybody may start the workflow. -/
def isUnrestricted : Roles → Bool
  | .all => true
  | _ => false

/-- Whether the default roles apply and let those in who can write. -/
def defaultIncludesWrite : Roles → Bool
  | .default => Names.defaultRoles.contains "write"
  | _ => false

end Roles

/-- A search whose number of matches decides whether the agent runs. -/
structure SkipQuery where
  query : String
  threshold : Nat
  deriving Repr, DecidableEq, Inhabited

/-- The program that runs the agent. -/
structure Engine where
  id : String
  /-- the command line, if it is not the identifier with the prompt -/
  command : Option String
  env : Dictionary String

/-- The engine of a workflow that names none. -/
def Engine.default : Engine := ⟨"copilot", none, .empty⟩

instance : Inhabited Engine := ⟨.default⟩

/-- A workflow. -/
structure Workflow where
  name : String
  description : Option String
  /-- the events that start the workflow, and their configuration -/
  triggers : Dictionary Yaml.Value
  roles : Roles
  /-- the permissions of the agent -/
  permissions : Option Permissions
  /-- the condition under which the agent runs -/
  condition : Option String
  /-- the deadline behind which the agent does not run -/
  stopTime : Option String
  /-- a search with too many matches keeps the agent from running -/
  skipIfMatch : Option SkipQuery
  /-- a search with too few matches keeps the agent from running -/
  skipIfNoMatch : Option SkipQuery
  /-- the reaction that is put on the item of the event -/
  reaction : Option String
  /-- whether the issue of the event is locked while the agent runs -/
  lockForAgent : Bool
  safeOutputs : Option SafeOutputs
  /-- the definitions of further jobs -/
  jobs : Dictionary Yaml.Value
  /-- the definitions of steps in front of the agent -/
  steps : List Yaml.Value
  engine : Engine
  /-- the runner of the generated jobs -/
  runsOn : Option String
  timeoutMinutes : Option Nat
  /-- the concurrency group of the pipeline -/
  concurrency : Option String
  /-- the environment of the agent's job -/
  environment : Option String
  githubToken : Option String
  strict : Bool
  /-- the prompt -/
  markdown : String

namespace Workflow

/-- The workflow with a name and nothing else. -/
def named (name : String) : Workflow where
  name
  description := none
  triggers := .empty
  roles := .default
  permissions := none
  condition := none
  stopTime := none
  skipIfMatch := none
  skipIfNoMatch := none
  reaction := none
  lockForAgent := false
  safeOutputs := none
  jobs := .empty
  steps := []
  engine := .default
  runsOn := none
  timeoutMinutes := none
  concurrency := none
  environment := none
  githubToken := none
  strict := false
  markdown := ""

instance : Inhabited Workflow := ⟨named ""⟩

/-- Whether an event starts the workflow. -/
def hasTrigger (w : Workflow) (event : String) : Bool :=
  w.triggers.contains event

/-- The settings of the safe outputs, if any kind is configured. -/
def outputs (w : Workflow) : Option SafeOutputs :=
  w.safeOutputs.filter fun s => !s.isEmpty

/-- Whether the agent may ask for any output. -/
def hasSafeOutputs (w : Workflow) : Bool := w.outputs.isSome

end Workflow

end AgentPipeline
