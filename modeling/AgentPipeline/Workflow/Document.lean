import AgentPipeline.Workflow.Trigger
import AgentPipeline.Yaml.Document
import AgentPipeline.Text.Line

/-!
# Workflow documents

A workflow is written as a document with a **frontmatter**, a block of YAML between two
lines of three dashes, and the prompt behind it. The first line of the document is the
first of the two; the second one may have white space behind it.

The fields of the frontmatter that are texts take scalars as they are written, whatever
they would denote as values. A field that stands for nothing counts as missing, and
unknown fields are passed over.

## Main definitions

* `Frontmatter.split`: the frontmatter and the prompt of a document.
* `Frontmatter`, `Frontmatter.parse?`: the fields of a frontmatter.
* `Workflow.parse`: the workflow that a document describes.
-/

namespace AgentPipeline

/-- The fields of a frontmatter. -/
structure Frontmatter where
  name : Option String
  description : Option String
  triggers : Option Yaml.Value
  roles : Option Roles
  permissions : Option Permissions
  condition : Option String
  runsOn : Option String
  timeoutMinutes : Option Nat
  concurrency : Option Yaml.Value
  environment : Option String
  githubToken : Option String
  strict : Option Bool
  engine : Option Engine
  safeOutputs : Option Yaml.Value
  jobs : Dictionary Yaml.Value
  steps : List Yaml.Value

namespace Frontmatter

/-! ### The two parts of a document -/

/-- A line of three dashes. -/
def isDelimiter (piece : List Char) : Bool :=
  Text.trimEnd piece == ['-', '-', '-']

/-- The text behind a first line of three dashes, unless there is another one. -/
def afterOpening : List Char → Option (List Char)
  | '-' :: '-' :: '-' :: '\n' :: rest => some rest
  | '-' :: '-' :: '-' :: '\r' :: '\n' :: rest => some rest
  | _ => none

/-- The text up to the first line of three dashes among its pieces, and the text behind
it. -/
def atClosing : List (List Char) → Option (List Char × List Char)
  | [] => none
  | piece :: rest =>
    if isDelimiter piece then some ([], rest.flatten)
    else (atClosing rest).map fun (yaml, body) => (piece ++ yaml, body)

/-- The frontmatter and the prompt of a document. Byte order marks in front of it do not
count. -/
def split (content : List Char) : Option (List Char × List Char) := do
  let rest ← afterOpening (content.dropWhile (·.toNat == 0xFEFF))
  atClosing (Text.pieces rest)

/-! ### Fields -/

/-- How deep collections may be nested below the frontmatter. -/
def depth : Nat := 127

/-- The names of the fields. -/
def fieldNames : List String :=
  ["name", "description", "on", "roles", "permissions", "if", "runs-on", "timeout-minutes",
    "concurrency", "environment", "github-token", "strict", "engine", "safe-outputs", "jobs",
    "steps"]

/-- Read a field that may be missing. -/
def field {α : Type} (fields : List (String × Yaml.Node)) (name : String)
    (inner : Yaml.Node → Yaml.Reader α) : Yaml.Reader (Option α) :=
  match fields.lookup name with
  | some n => Yaml.Reader.optional inner n
  | none => pure none

/-- Read a section that a value denotes. -/
def sectionOf {α : Type} (value : Yaml.Node → Yaml.Reader Yaml.Value)
    (denoted : Yaml.Value → Option α) (n : Yaml.Node) : Yaml.Reader α := do
  match denoted (← value n) with
  | some a => pure a
  | none => failure

/-- Read the jobs: values by their names. -/
def readJobs (n : Yaml.Node) : Yaml.Reader (Dictionary Yaml.Value) := do
  let entries ← Yaml.Reader.entries n
  let jobs ← entries.mapM fun e => do
    pure (e.1, ← Yaml.Reader.value (depth - 1) e.2)
  pure (.ofList jobs)

/-- Read the steps: a list of values. -/
def readSteps (n : Yaml.Node) : Yaml.Reader (List Yaml.Value) := do
  (← Yaml.Reader.items n).mapM (Yaml.Reader.value (depth - 1))

/-- The permissions that a value denotes. -/
def permissions? (v : Yaml.Value) : Option Permissions :=
  (Permissions.ofValue v).toOption

/-- Read a frontmatter. -/
def read (n : Yaml.Node) : Yaml.Reader Frontmatter := do
  let fields ← Yaml.Reader.entries n
  let known := fields.filter fun e => fieldNames.contains e.1
  if !(known.map (·.1)).Nodup then failure
  pure
    { name := ← field known "name" Yaml.Reader.text
      description := ← field known "description" Yaml.Reader.text
      triggers := ← field known "on" (Yaml.Reader.value depth)
      roles := ← field known "roles" (sectionOf (Yaml.Reader.content depth) Roles.ofValue?)
      permissions :=
        ← field known "permissions" (sectionOf (Yaml.Reader.value depth) permissions?)
      condition := ← field known "if" Yaml.Reader.text
      runsOn := ← field known "runs-on" Yaml.Reader.text
      timeoutMinutes := ← field known "timeout-minutes" (Yaml.Reader.natural (Nat.pow 2 32))
      concurrency := ← field known "concurrency" (Yaml.Reader.value depth)
      environment := ← field known "environment" Yaml.Reader.text
      githubToken := ← field known "github-token" Yaml.Reader.text
      strict := ← field known "strict" Yaml.Reader.boolean
      engine :=
        ← field known "engine" (sectionOf (Yaml.Reader.content depth) Engine.ofValue?)
      safeOutputs := ← field known "safe-outputs" (Yaml.Reader.value depth)
      jobs := ← match known.lookup "jobs" with
        | some n => readJobs n
        | none => pure .empty
      steps := ← match known.lookup "steps" with
        | some n => readSteps n
        | none => pure [] }

/-- The frontmatter without fields. -/
def empty : Frontmatter :=
  ⟨none, none, none, none, none, none, none, none, none, none, none, none, none, none,
    .empty, []⟩

/-- The fields of a frontmatter; none in a blank one. -/
def parse? (yaml : String) : Option Frontmatter :=
  if Text.Str.isBlank yaml then some empty
  else (Yaml.Document.parse? yaml).bind (·.read? read)

end Frontmatter

namespace Workflow

/-- The title of the first heading of the first level, if it is not empty. -/
def firstHeading (body : String) : Option String :=
  let titles := (Text.lines body.toList).filterMap fun line =>
    match Text.trimStart line with
    | '#' :: ' ' :: title => some (String.ofList (Text.trim title))
    | _ => none
  titles.head?.filter (· != "")

/-- The concurrency group that a value denotes: a text, or the entry `group` of a
mapping. -/
def concurrencyGroup : Yaml.Value → Option String
  | .string group => some group
  | .mapping entries => (Yaml.Value.lookup "group" entries).bind (·.asString?)
  | _ => none

/-- The workflow that a frontmatter and a prompt describe. -/
def ofFrontmatter (f : Frontmatter) (body : String) : Except ConfigError Workflow := do
  match f.triggers with
  | none => .error (.invalidTrigger "missing 'on' section")
  | some section_ => do
    let safeOutputs ←
      match f.safeOutputs with
      | some v => some <$> SafeOutputs.ofValue v
      | none => pure none
    let triggers ← TriggerSection.ofValue section_
    pure
      { name := (f.name.or (firstHeading body)).getD ""
        description := f.description
        triggers := triggers.events
        roles := f.roles.getD .default
        permissions := f.permissions
        condition := f.condition
        stopTime := triggers.stopTime
        skipIfMatch := triggers.skipIfMatch
        skipIfNoMatch := triggers.skipIfNoMatch
        reaction := triggers.reaction
        lockForAgent := triggers.lockForAgent
        safeOutputs
        jobs := f.jobs
        steps := f.steps
        engine := f.engine.getD .default
        runsOn := f.runsOn
        timeoutMinutes := f.timeoutMinutes
        concurrency := f.concurrency.bind concurrencyGroup
        environment := f.environment
        githubToken := f.githubToken
        strict := f.strict.getD false
        markdown := body }

/-- The workflow that a document describes. -/
def parse (content : String) : Except CompileError Workflow :=
  match Frontmatter.split content.toList with
  | none => .error (.config .missingFrontmatter)
  | some (yaml, body) =>
    match Frontmatter.parse? (String.ofList yaml) with
    | none => .error .malformedYaml
    | some f => (ofFrontmatter f (String.ofList body)).mapError .config

/-- The workflow that a file describes, named after the file if nothing else names it. -/
def parseFile (stem content : String) : Except CompileError Workflow := do
  let w ← parse content
  pure (if w.name = "" then { w with name := stem } else w)

end Workflow

end AgentPipeline
