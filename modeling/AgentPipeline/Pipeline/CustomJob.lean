import AgentPipeline.Workflow.Basic
import AgentPipeline.Job.Basic
import AgentPipeline.Workflow.Section

/-!
# Custom jobs

The author's own jobs are mappings. A key whose value has the expected form becomes the
part of the job that it names; all other keys are kept as they are, apart from those with a
fixed meaning whose value makes no sense. A job that calls another workflow has no runner,
and a job that needs nothing waits for the activation job if there is one.

## Main definitions

* `CustomJob`, `CustomJob.parse`: the definition of a job, checked.
* `Workflow.customJobs`: the custom jobs of a workflow, in the order of their names.
* `CustomJob.toJob`: the job that a definition describes.
-/

namespace AgentPipeline

/-- A custom job. -/
structure CustomJob where
  name : String
  /-- the jobs that the definition asks for -/
  needs : List String
  /-- the entries of the definition -/
  definition : List (Yaml.Value × Yaml.Value)

namespace CustomJob

/-- The names of needed jobs that a value denotes: none, one, or a list. -/
def needs? (v : Yaml.Value) : Option (List String) :=
  if v.isUntagged then
    match v with
    | .null => some []
    | .string name => some [name]
    | v => Section.texts? v
  else none

/-- Whether a definition has an entry with a key. -/
def hasKey (definition : List (Yaml.Value × Yaml.Value)) (key : String) : Bool :=
  (Yaml.Value.lookup key definition).isSome

/-- The custom job with a name and a definition. -/
def parse (name : String) (v : Yaml.Value) : Except ConfigError CustomJob :=
  if Names.reservedJobs.contains name then .error (.reservedJobName name)
  else
    match v.entries? with
    | none => .error (.invalidCustomJob name "job definition must be a mapping")
    | some definition =>
      match needs? ((Yaml.Value.lookup "needs" definition).getD .null) with
      | none =>
        .error (.invalidCustomJob name "needs must be a job name or a list of job names")
      | some needs =>
        if hasKey definition "steps" || hasKey definition "uses" then
          .ok ⟨name, needs, definition⟩
        else .error (.invalidCustomJob name "job must define steps or uses")

/-- Whether a job is among those that the definition asks for. -/
def dependsOn (c : CustomJob) (job : String) : Bool := c.needs.contains job

/-! ### Jobs from definitions -/

/-- The text of a scalar value other than null. -/
def scalarText? : Yaml.Value → Option String
  | .string s => some s
  | .number n => some n.text
  | .bool b => some (toString b)
  | _ => none

/-- A dictionary of scalars from the entries of a part of a job. -/
def readTexts (job part : String) (entries : List (Yaml.Value × Yaml.Value)) :
    Except ConfigError (Dictionary String) := do
  let entries ← entries.mapM fun e =>
    match e.1.asString?, scalarText? e.2 with
    | some key, some text => .ok (key, text)
    | _, _ => .error (.invalidCustomJob job (part ++ " entries must be scalar values"))
  pure (.ofList entries)

/-- The job with a part kept as it is. -/
def keep (job : Job) (key : String) (v : Yaml.Value) : Job :=
  { job with extra := job.extra.insert key v }

/-- The job with one more entry of its definition. -/
def addEntry (job : Job) (key : String) (v : Yaml.Value) : Except ConfigError Job :=
  match key, v with
  | "needs", _ => .ok job
  | "runs-on", .string runner => .ok { job with runsOn := runner }
  | "runs-on", v => .ok (keep { job with runsOn := "" } key v)
  | "if", .string condition =>
    .ok { job with condition := some (Reference.unwrapTemplate condition) }
  | "name", .string name => .ok { job with displayName := some name }
  | "environment", .string name => .ok { job with environment := some name }
  | "concurrency", .string group => .ok { job with concurrency := some group }
  | "timeout-minutes", .number n =>
    match n.asUInt32? with
    | some minutes => .ok { job with timeoutMinutes := some minutes }
    | none => .error (.invalidCustomJob job.name "invalid timeout-minutes")
  | "permissions", v => do
    pure { job with permissions := some (← Permissions.ofValue v) }
  | "steps", .sequence steps => .ok (job.addSteps (steps.map .authored))
  | "steps", _ => .error (.invalidCustomJob job.name "steps must be a list")
  | "outputs", .mapping entries => do
    pure { job with outputs := ← readTexts job.name key entries }
  | "env", .mapping entries => do
    pure { job with env := ← readTexts job.name key entries }
  | key, v => .ok (keep job key v)

/-- The job with the entries of a definition. Entries whose key is no string are passed
over. -/
def addEntries (job : Job) (definition : List (Yaml.Value × Yaml.Value)) :
    Except ConfigError Job :=
  definition.foldlM
    (fun job e =>
      match e.1.asString? with
      | some key => addEntry job key e.2
      | none => .ok job)
    job

/-- The jobs that a custom job needs. -/
def effectiveNeeds (c : CustomJob) (activationExists : Bool) : List String :=
  if c.needs.isEmpty && activationExists then [Names.activationJob] else c.needs

/-- The job that a definition describes. -/
def toJob (c : CustomJob) (defaultRunner : String) (activationExists : Bool) :
    Except ConfigError Job :=
  addEntries
    { name := c.name
      runsOn := if hasKey c.definition "uses" then "" else defaultRunner
      needs := c.effectiveNeeds activationExists }
    c.definition

end CustomJob

/-- The custom jobs of a workflow, in the order of their names. -/
def Workflow.customJobs (w : Workflow) : Except ConfigError (List CustomJob) :=
  w.jobs.entries.mapM fun e => CustomJob.parse e.1 e.2

end AgentPipeline
