import AgentPipeline.Command.Invocation

/-!
# Help

The answers to questions for help and for the version, and what is said about arguments
that make no sense.
-/

namespace AgentPipeline

/-- The name and the version of the program. -/
def versionText : String := "awc 0.1.0\n"

/-- The answer to a question for help. -/
def HelpTopic.text : HelpTopic → String
  | .program =>
    "Usage: awc <COMMAND>\n\n" ++
      "Commands:\n" ++
      "  compile  Compile a markdown workflow into a pipeline definition\n" ++
      "  expr     Parse a condition expression and print its canonical rendering\n" ++
      "  help     Print this message or the help of the given subcommand(s)\n\n" ++
      "Options:\n" ++
      "  -h, --help     Print help\n" ++
      "  -V, --version  Print version\n"
  | .compile =>
    "Compile a markdown workflow into a pipeline definition\n\n" ++
      "Usage: awc compile [OPTIONS] <FILE>\n\n" ++
      "Arguments:\n" ++
      "  <FILE>  Path to the workflow file\n\n" ++
      "Options:\n" ++
      "  -o, --output <OUTPUT>  Output path, defaults to \x60<file>.lock.yml\x60 next to the " ++
      "source\n" ++
      "      --strict           Fail on unpinned actions, agent write grants and implicit " ++
      "project tokens\n" ++
      "  -r, --runner <RUNNER>  Runner for jobs that do not set \x60runs-on\x60\n" ++
      "      --stdout           Print the pipeline instead of writing it\n" ++
      "  -h, --help             Print help\n"
  | .expr =>
    "Parse a condition expression and print its canonical rendering\n\n" ++
      "Usage: awc expr <EXPRESSION>\n\n" ++
      "Arguments:\n" ++
      "  <EXPRESSION>  The expression, optionally wrapped in \x60$\x7b\x7b \x7d\x7d\x60\n\n" ++
      "Options:\n" ++
      "  -h, --help  Print help\n"
  | .help =>
    "Print this message or the help of the given subcommand(s)\n\n" ++
      "Usage: awc help [COMMAND]...\n\n" ++
      "Arguments:\n" ++
      "  [COMMAND]...  Print help for the subcommand(s)\n"

/-- What is said about arguments that make no sense; without any, how they should be. -/
def UsageError.report : UsageError → String
  | .missingCommand => HelpTopic.program.text
  | e =>
    "error: " ++ e.message ++ "\n\nUsage: awc <COMMAND>\n\n" ++
      "For more information, try '--help'.\n"

end AgentPipeline
