import AgentPipeline.Command.Outcome
import Std.Time.DateTime.Timestamp

/-!
# The program

The program reads its environment, with a file `.env` on top if there is one, and the file
it is asked to read. Then it does what follows from these.
-/

namespace AgentPipeline

/-- The content of a file, if it can be read. -/
def readIfPossible (path : String) : IO (Option String) := do
  try
    return some (← IO.FS.readFile path)
  catch _ => return none

/-- The values that the process has for some variables. -/
def processValues (names : List String) : IO Environment := do
  let entries ← names.filterMapM fun name => do
    return (← IO.getEnv name).map (name, ·)
  return .ofList entries

/-- The environment of the process and of the file `.env`. -/
def readEnvironment : IO Environment := do
  let names := [Environment.strictName, Environment.runnerName]
  match ← readIfPossible ".env" with
  | none => processValues names
  | some file => return (← processValues (names ++ Environment.namesIn file)).load file

/-- Write a file, and tell whether that was possible. -/
def writeIfPossible (path content : String) : IO Bool := do
  try
    IO.FS.writeFile path content
    return true
  catch _ => return false

/-- Print the texts of an outcome. -/
def finish (outcome : Outcome) : IO UInt32 := do
  (← IO.getStdout).putStr outcome.stdout
  (← IO.getStderr).putStr outcome.stderr
  return outcome.exitCode.toUInt32

/-- Do what arguments ask for. -/
def runArguments (arguments : List String) : IO UInt32 := do
  let env ← readEnvironment
  let now := (← Std.Time.Timestamp.now).toSecondsSinceUnixEpoch.val
  let invocation := Invocation.ofArguments arguments
  let content ←
    match invocation.source? with
    | some path => readIfPossible path
    | none => pure none
  match invocation.action env now content with
  | .finish outcome => finish outcome
  | .write path text written unwritten =>
    finish (if ← writeIfPossible path text then written else unwritten)

end AgentPipeline

/-- The program `awc`. -/
def main (arguments : List String) : IO UInt32 :=
  AgentPipeline.runArguments arguments
