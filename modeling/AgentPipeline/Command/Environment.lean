import AgentPipeline.Command.Assignment
import AgentPipeline.Pipeline.Context
import AgentPipeline.Text.Line

/-!
# Environments

An **environment** gives values to variables. An environment file adds the variables that
have no value yet, line by line up to the first line that is malformed; a value may refer
to variables that were there before or come from the lines above, and a variable without
a value counts as empty.

An environment is a list of texts `name=value`, and a reference is looked up among these
texts: a name with an equals sign in it finds a variable whose value starts with what
follows that sign.

## Main definitions

* `Environment`, `Environment.load`: environments, and the effect of a file on them.
* `Environment.options`: the options of a compilation that an environment asks for.
-/

namespace AgentPipeline

/-- Values of variables by their names. -/
abbrev Environment := Dictionary String

namespace Environment

/-- The text behind another one at the start of a text. -/
def behind? : List Char → List Char → Option (List Char)
  | [], cs => some cs
  | c :: start, d :: cs => if c = d then behind? start cs else none
  | _ :: _, [] => none

/-- What follows a name and an equals sign in a text `name=value` of the environment. -/
def resolve? (env : Environment) (name : List Char) : Option String :=
  let value := env.get? (String.ofList (name.takeWhile (· != '=')))
  match name.dropWhile (· != '=') with
  | [] => value
  | _ :: start => value.bind fun s => (behind? (start ++ ['=']) s.toList).map String.ofList

/-- The text of a part of a value. -/
def expandPart (env : Environment) : ValuePart → String
  | .char c => c.toString
  | .value name => (env.resolve? name).getD ""

/-- The text of a value. -/
def expand (env : Environment) (parts : List ValuePart) : String :=
  String.join (parts.map env.expandPart)

/-- The environment after an assignment, which leaves a variable with a value as it is. -/
def assign (env : Environment) (a : Assignment) : Environment :=
  if env.contains a.name then env else env.insert a.name (env.expand a.parts)

/-- The environment after lines of assignments, up to the first malformed one. -/
def loadLines (env : Environment) : List (List Char) → Environment
  | [] => env
  | line :: rest =>
    match Assignment.ofLine? line with
    | none => env
    | some none => env.loadLines rest
    | some (some a) => (env.assign a).loadLines rest

/-- The environment after an environment file. -/
def load (env : Environment) (file : String) : Environment :=
  env.loadLines (Text.lines file.toList)

/-! ### Names -/

/-- The names of the variables that an assignment reads or writes. -/
def namesOf (a : Assignment) : List String :=
  a.name :: a.parts.filterMap fun
    | .char _ => none
    | .value name => some (String.ofList (name.takeWhile (· != '=')))

/-- The names that an environment file reads or writes. -/
def namesIn (file : String) : List String :=
  (Text.lines file.toList).flatMap fun line =>
    match Assignment.ofLine? line with
    | some (some a) => namesOf a
    | _ => []

/-! ### Options -/

/-- The variable that asks for strict mode. -/
def strictName : String := "AWC_STRICT"

/-- The variable that names the default runner. -/
def runnerName : String := "AWC_DEFAULT_RUNNER"

/-- Whether a value means yes: one of three words, in any case. -/
def isYes (value : String) : Bool :=
  ["1", "true", "yes"].contains (String.ofList ((Text.trim value.toList).map Char.toLower))

/-- The options that an environment asks for. A blank name of a runner counts as none. -/
def options (env : Environment) (now : Int) : Options where
  strict := ((env.get? strictName).map isYes).getD false
  defaultRunner :=
    (((env.get? runnerName).map Text.Str.trim).filter (· != "")).getD Names.defaultRunner
  referenceTime := now

end Environment

end AgentPipeline
