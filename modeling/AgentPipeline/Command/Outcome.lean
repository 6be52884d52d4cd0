import AgentPipeline.Command.Environment
import AgentPipeline.Command.Help
import AgentPipeline.Command.Path
import AgentPipeline.Condition.Parser
import AgentPipeline.Condition.Reference
import AgentPipeline.Condition.Wrap
import AgentPipeline.Pipeline.Basic

/-!
# Outcomes

What the program does with an invocation is a function of the environment, the time and
the content of the file that it reads. It ends with an exit code and two texts, possibly
after it has written one file.

An error is told with what was being done and with its causes, one indented line each,
numbered if there are several.

## Main definitions

* `Outcome`, `Outcome.failure`: how a run ends.
* `Action`, `Invocation.action`: what an invocation leads to.
-/

namespace AgentPipeline

/-- How a run of the program ends. -/
structure Outcome where
  exitCode : Nat
  stdout : String
  stderr : String
  deriving Repr, DecidableEq, Inhabited

/-- What a run of the program does last: it ends, or it writes a file and ends, in one of
two ways. -/
inductive Action where
  | finish (outcome : Outcome)
  | write (path content : String) (written unwritten : Outcome)
  deriving Repr, DecidableEq, Inhabited

namespace Outcome

/-- The end of a run that has something to tell. -/
def success (stdout : String) : Outcome := ⟨0, stdout, ""⟩

/-! ### Failures -/

/-- A text whose lines but the first are indented. -/
def hang (indentation : Nat) (text : String) : String :=
  String.ofList (text.toList.flatMap fun c =>
    if c = '\n' then c :: List.replicate indentation ' ' else [c])

/-- A cause that is the only one. -/
def soleCause (text : String) : String :=
  "\n    " ++ hang 4 text

/-- One of several causes. -/
def numberedCause (text : String) (number : Nat) : String :=
  let digits := toString number
  "\n" ++ String.ofList (List.replicate (5 - digits.length) ' ') ++ digits ++ ": " ++
    hang 7 text

/-- What is said about the causes of an error. -/
def causes : List String → String
  | [] => ""
  | [text] => "\n\nCaused by:" ++ soleCause text
  | texts => "\n\nCaused by:" ++ String.join (texts.zipIdx.map fun e => numberedCause e.1 e.2)

/-- The end of a run that failed at something, for some causes. -/
def failure (what : String) (texts : List String) : Outcome :=
  ⟨1, "", "Error: " ++ what ++ causes texts ++ "\n"⟩

end Outcome

/-- The texts of an error and of the one behind it. -/
def CompileError.causes (e : CompileError) : List String :=
  e.message :: e.cause.toList

namespace CompileRequest

/-- The options of a compilation: those of the environment, unless the request has its
own. -/
def options (request : CompileRequest) (env : Environment) (now : Int) : Options :=
  let options := env.options now
  { options with
    strict := options.strict || request.strict
    defaultRunner := request.runner.getD options.defaultRunner }

/-- The file to write. -/
def target (request : CompileRequest) : String :=
  request.output.getD (Path.lockFile request.file)

/-- What the request leads to, given the content of its file if it can be read. -/
def action (request : CompileRequest) (env : Environment) (now : Int)
    (content : Option String) : Action :=
  let compiler : Compiler := { options := request.options env now }
  match compiler.compileFile (Path.stem request.file) content with
  | .error e => .finish (.failure ("failed to compile " ++ request.file) e.causes)
  | .ok pipeline =>
    match pipeline.render with
    | .error e => .finish (.failure e.message [])
    | .ok text =>
      if request.toStdout then .finish (.success text)
      else
        .write request.target text
          (.success ("Compiled '" ++ pipeline.name ++ "' -> " ++ request.target ++ "\n"))
          (.failure ("failed to write " ++ request.target)
            [CompileError.unreadableFile.message])

end CompileRequest

/-- What is printed about a condition: its canonical text, and that text broken into lines
if there are several. -/
def Condition.report (c : Condition) : String :=
  let text := c.render
  match Wrap.Str.breakLines text with
  | first :: second :: rest =>
    text ++ "\n\n" ++ String.join ((first :: second :: rest).map fun line =>
      "  " ++ line ++ "\n")
  | _ => text ++ "\n"

namespace Invocation

/-- The end of a run that reads a condition. -/
def exprOutcome (text : String) : Outcome :=
  match Condition.parse (Reference.unwrapTemplate text) with
  | .ok c => .success c.report
  | .error e => .failure ("invalid expression: " ++ text) [e.message]

/-- What an invocation leads to, given the content of its file if it can be read. -/
def action (env : Environment) (now : Int) (content : Option String) : Invocation → Action
  | .compile request => request.action env now content
  | .expr text => .finish (exprOutcome text)
  | .help topic => .finish (.success topic.text)
  | .version => .finish (.success versionText)
  | .misuse e => .finish ⟨2, "", e.report⟩

end Invocation

end AgentPipeline
