import AgentPipeline.Command.Arguments

/-!
# Invocations

The program `awc` has two commands: `compile` writes or prints the pipeline of a workflow,
and `expr` prints the canonical text of a condition. It also answers questions for help
and for its version.

## Main definitions

* `CompileRequest`: what `compile` is asked for.
* `Invocation`, `Invocation.ofArguments`: what the program is asked for.
-/

namespace AgentPipeline

/-- What `compile` is asked for. -/
structure CompileRequest where
  /-- the file of the workflow -/
  file : String
  /-- the file to write, if it is not the one beside the workflow -/
  output : Option String
  /-- whether strict mode is asked for -/
  strict : Bool
  /-- the runner of workflows that name none -/
  runner : Option String
  /-- whether to print the pipeline and write no file -/
  toStdout : Bool
  deriving Repr, DecidableEq, Inhabited

/-- What there is help about. -/
inductive HelpTopic where
  | program
  | compile
  | expr
  | help
  deriving Repr, DecidableEq, Inhabited

/-- The command of a name, as something to get help about. -/
def HelpTopic.ofName? : String → Option HelpTopic
  | "compile" => some .compile
  | "expr" => some .expr
  | "help" => some .help
  | _ => none

/-- What the program is asked for. -/
inductive Invocation where
  | compile (request : CompileRequest)
  | expr (text : String)
  | help (topic : HelpTopic)
  | version
  /-- the arguments make no sense -/
  | misuse (e : UsageError)
  deriving Repr, DecidableEq, Inhabited

namespace Invocation

/-! ### Commands -/

/-- What `compile` takes. -/
def compileSpec : CommandSpec where
  options :=
    [⟨"output", some 'o', .path⟩, ⟨"strict", none, .absent⟩, ⟨"runner", some 'r', .text⟩,
      ⟨"stdout", none, .absent⟩]
  operand := .path

/-- What `expr` takes. -/
def exprSpec : CommandSpec where
  options := []
  operand := .text

/-- The request that the arguments of `compile` make. -/
def ofCompile (arguments : List String) : Invocation :=
  match compileSpec.read arguments with
  | .ok (file, a) =>
    .compile ⟨file, a.value? "output", a.has "strict", a.value? "runner", a.has "stdout"⟩
  | .error .help => .help .compile
  | .error (.misuse e) => .misuse e

/-- The request that the arguments of `expr` make. -/
def ofExpr (arguments : List String) : Invocation :=
  match exprSpec.read arguments with
  | .ok (text, _) => .expr text
  | .error .help => .help .expr
  | .error (.misuse e) => .misuse e

/-- The request that the arguments of `help` make. -/
def ofHelp : List String → Invocation
  | [] => .help .program
  | name :: rest =>
    match HelpTopic.ofName? name, rest with
    | some topic, [] => .help topic
    | some _, other :: _ => .misuse (.unknownCommand other)
    | none, _ => .misuse (.unknownCommand name)

/-! ### The program -/

/-- What the arguments of the program ask for. -/
def ofArguments : List String → Invocation
  | [] => .misuse .missingCommand
  | argument :: rest =>
    match ArgumentForm.of argument with
    | .operand "compile" => ofCompile rest
    | .operand "expr" => ofExpr rest
    | .operand "help" => ofHelp rest
    | .operand other => .misuse (.unknownCommand other)
    | .long "help" none => .help .program
    | .long "version" none => .version
    | .short ('h' :: _) => .help .program
    | .short ('V' :: _) => .version
    | .separator => .misuse .missingCommand
    | _ => .misuse (.unexpectedArgument argument)

/-- The file that an invocation reads. -/
def source? : Invocation → Option String
  | .compile request => some request.file
  | _ => none

end Invocation

end AgentPipeline
