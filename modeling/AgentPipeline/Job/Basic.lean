import AgentPipeline.Job.Step
import AgentPipeline.Permission.Basic
import AgentPipeline.Condition.Reference
import AgentPipeline.Dictionary

/-!
# Jobs

A job has a name, a runner, the jobs it needs, a condition, permissions and steps. Parts
of the author's jobs that have no meaning here are kept as values and written as they are.

## Main definitions

* `Job`, `Job.need`: jobs, and one more needed job.
* `Job.expressions`: the texts of a job that the runner evaluates.
* `Job.render`: the entry of a job in a pipeline.
-/

namespace AgentPipeline

/-- A job of a pipeline. -/
structure Job where
  name : String
  displayName : Option String := none
  /-- the runner; empty for a job that calls another workflow -/
  runsOn : String
  /-- the condition under which the job runs, without the braces of a template -/
  condition : Option String := none
  permissions : Option Permissions := none
  /-- the jobs that have to end before -/
  needs : List String := []
  steps : List JobStep := []
  outputs : Dictionary String := .empty
  /-- the concurrency group -/
  concurrency : Option String := none
  environment : Option String := none
  timeoutMinutes : Option Nat := none
  env : Dictionary String := .empty
  /-- the parts that have no meaning here -/
  extra : Dictionary Yaml.Value := .empty

namespace Job

instance : Inhabited Job := ⟨{ name := "", runsOn := "" }⟩

/-- The list with a name at its end, unless the name is in it. -/
def addName (names : List String) (name : String) : List String :=
  if name ∈ names then names else names ++ [name]

/-- The job with one more job that it needs. -/
def need (job : Job) (name : String) : Job :=
  { job with needs := addName job.needs name }

/-- The job with some more steps. -/
def addSteps (job : Job) (steps : List JobStep) : Job :=
  { job with steps := job.steps ++ steps }

/-- The job with one more generated step. -/
def step (job : Job) (s : Step) : Job := job.addSteps [.generated s]

/-- The job with one more output. -/
def output (job : Job) (name value : String) : Job :=
  { job with outputs := job.outputs.insert name value }

/-- The texts of the steps. -/
def stepTexts (job : Job) : List String := job.steps.map JobStep.render

/-- The conditions of the steps. -/
def stepConditions (job : Job) : List String := job.steps.filterMap JobStep.condition

/-- The texts of a job in which templates are evaluated. -/
def templated (job : Job) : List String :=
  job.stepTexts ++ job.outputs.values ++ job.env.values ++ job.concurrency.toList

/-- The expressions of a job that the runner evaluates: the conditions of the job and its
steps, and the templates in its texts. -/
def expressions (job : Job) : List String :=
  job.condition.toList ++ job.stepConditions ++ job.templated.flatMap Reference.templates

/-! ### Rendering -/

/-- The column of the keys of a job. -/
def column : Nat := 4

/-- The lines of the needed jobs: one behind the key, several below it. -/
def needsLines : List String → List String
  | [] => []
  | [name] => [Yaml.entry column "needs" name]
  | names =>
    (Yaml.pad column ++ "needs:") ::
      names.map fun name => Yaml.pad (column + 2) ++ "- " ++ name

/-- The lines of permissions. -/
def permissionsLines (p : Permissions) : List String :=
  (Text.Str.lines p.render).map (Yaml.pad column ++ ·)

/-- The parts of the text of a job. -/
def parts (job : Job) : List String :=
  ["  " ++ job.name ++ ":"] ++
    Step.optionalLine job.displayName (Yaml.entry column "name") ++
    needsLines job.needs ++
    Step.optionalLine job.condition (Yaml.ifEntry column) ++
    (if job.runsOn = "" then [] else [Yaml.entry column "runs-on" job.runsOn]) ++
    Step.optionalLine job.environment (Yaml.entry column "environment") ++
    (job.permissions.map permissionsLines).getD [] ++
    (match job.concurrency with
      | some group =>
        [Yaml.pad column ++ "concurrency:", Yaml.entry (column + 2) "group" group]
      | none => []) ++
    (match job.timeoutMinutes with
      | some minutes => [Yaml.pad column ++ "timeout-minutes: " ++ toString minutes]
      | none => []) ++
    job.extra.entries.map (fun e => Yaml.valueEntry column e.1 e.2) ++
    Step.block column "env" job.env.entries ++
    Step.block column "outputs" job.outputs.entries ++
    (if job.steps = [] then [] else (Yaml.pad column ++ "steps:") :: job.stepTexts)

/-- The entry of a job in a pipeline. -/
def render (job : Job) : String := "\n".intercalate job.parts

end Job

end AgentPipeline
