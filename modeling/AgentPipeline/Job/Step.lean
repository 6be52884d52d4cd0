import AgentPipeline.Yaml.Entry

/-!
# Steps

A job is a list of steps. A generated step has named parts; a step of the author is a
value that is written as it is. Both have a text at a fixed column, and both may have a
condition.

## Main definitions

* `Step`, `Step.render`: generated steps.
* `JobStep`: generated steps and steps of the author.
-/

namespace AgentPipeline

/-- A generated step. -/
structure Step where
  name : String
  id : Option String := none
  /-- the condition under which the step runs, without the braces of a template -/
  condition : Option String := none
  /-- the reference to the action that the step runs -/
  uses : Option String := none
  /-- the inputs of the action -/
  inputs : List (String × String) := []
  env : List (String × String) := []
  /-- the script that the step runs -/
  run : Option String := none
  continueOnError : Bool := false
  deriving Repr, DecidableEq, Inhabited

namespace Step

/-- The column of the dash of a step. -/
def column : Nat := 6

/-- The line of a key with a text in a fixed place, for each text that is there. -/
def optionalLine (text : Option String) (line : String → String) : List String :=
  (text.map line).toList

/-- The lines of a key with entries below it, none if there are no entries. -/
def block (indent : Nat) (key : String) (entries : List (String × String)) : List String :=
  if entries = [] then []
  else
    (Yaml.pad indent ++ key ++ ":") ::
      entries.map fun e => Yaml.entry (indent + 2) e.1 e.2

/-- The parts of the text of a step. The reference to an action is written as it is, since
a pinned one ends with a comment. -/
def parts (s : Step) : List String :=
  let indent := column + 2
  [Yaml.pad column ++ "- name: " ++ Yaml.scalar s.name] ++
    optionalLine s.id (Yaml.entry indent "id") ++
    optionalLine s.condition (Yaml.ifEntry indent) ++
    (if s.continueOnError then [Yaml.pad indent ++ "continue-on-error: true"] else []) ++
    optionalLine s.uses (fun uses => Yaml.pad indent ++ "uses: " ++ uses) ++
    block indent "with" s.inputs ++ block indent "env" s.env ++
    optionalLine s.run (Yaml.entry indent "run")

/-- The text of a step. -/
def render (s : Step) : String := "\n".intercalate s.parts

end Step

/-- A step of a job. -/
inductive JobStep where
  | generated (step : Step)
  /-- a step of the author -/
  | authored (value : Yaml.Value)

namespace JobStep

/-- The text of a step. -/
def render : JobStep → String
  | .generated step => step.render
  | .authored v => Yaml.listItem Step.column v

/-- The condition of a step. -/
def condition : JobStep → Option String
  | .generated step => step.condition
  | .authored v => (v.get? "if").bind (·.asString?)

end JobStep

end AgentPipeline
