import AgentPipeline.Condition.Token

/-!
# Errors

What can be wrong with a workflow, by cause: its conditions (`ConditionError`), its
configuration, the graph of its jobs, and the actions it uses. The wording of each error
is given once, by its `message`.
-/

namespace AgentPipeline

/-- What can be wrong with the configuration of a workflow. -/
inductive ConfigError where
  /-- the document does not start with a configuration block -/
  | missingFrontmatter
  /-- the events that start the workflow cannot be made out -/
  | invalidTrigger (reason : String)
  /-- a key of the safe outputs that is no output kind, or whose settings are wrong -/
  | unknownSafeOutput (reason : String)
  /-- a setting that concerns all safe outputs has the wrong type -/
  | invalidSafeOutputSetting (key expected : String)
  /-- an entry of a permissions block is not a scope with one of its levels -/
  | invalidPermission (scope level : String)
  /-- a job of the workflow takes the name of a generated one -/
  | reservedJobName (name : String)
  /-- a job of the workflow cannot be used -/
  | invalidCustomJob (name reason : String)
  /-- a deadline that denotes no point in time -/
  | invalidStopTime (value : String)
  /-- strict mode: the project outputs have no token of their own -/
  | missingProjectToken (kind : String)
  /-- strict mode: the agent may not write -/
  | writePermissionInStrictMode (scope : String)
  deriving Repr, DecidableEq, Inhabited

/-- The text of a configuration error. -/
def ConfigError.message : ConfigError → String
  | .missingFrontmatter => "workflow document has no frontmatter block"
  | .invalidTrigger reason => "invalid trigger configuration: " ++ reason
  | .unknownSafeOutput reason => "unknown safe output type '" ++ reason ++ "'"
  | .invalidSafeOutputSetting key expected =>
    "invalid safe-outputs setting '" ++ key ++ "': expected " ++ expected
  | .invalidPermission scope level =>
    "invalid permission '" ++ scope ++ ": " ++ level ++ "'"
  | .reservedJobName name => "custom job name '" ++ name ++ "' is reserved"
  | .invalidCustomJob name reason => "invalid custom job '" ++ name ++ "': " ++ reason
  | .invalidStopTime value => "invalid stop-after value '" ++ value ++ "'"
  | .missingProjectToken kind =>
    "safe output '" ++ kind ++ "' requires an explicit github-token in strict mode"
  | .writePermissionInStrictMode scope =>
    "strict mode does not allow '" ++ scope ++
      ": write' on the agent job; use safe-outputs instead"

/-- What can be wrong with the graph of jobs. -/
inductive GraphError where
  /-- two jobs have one name -/
  | duplicateJob (name : String)
  /-- a job needs a job that does not exist -/
  | unknownDependency (job dependency : String)
  /-- the needs of the jobs form a cycle, on which this job lies -/
  | cycleDetected (name : String)
  /-- a job reads the outputs of a job that it does not need -/
  | missingDirectDependency (job referenced : String)
  deriving Repr, DecidableEq, Inhabited

/-- The text of an error of the job graph. -/
def GraphError.message : GraphError → String
  | .duplicateJob name => "job '" ++ name ++ "' is defined more than once"
  | .unknownDependency job dependency =>
    "job '" ++ job ++ "' needs unknown job '" ++ dependency ++ "'"
  | .cycleDetected name => "dependency cycle detected involving job '" ++ name ++ "'"
  | .missingDirectDependency job referenced =>
    "job '" ++ job ++ "' references outputs of '" ++ referenced ++
      "' but does not list it in needs"

/-- What can go wrong in a compilation. -/
inductive CompileError where
  /-- a condition cannot be read -/
  | condition (e : ConditionError)
  /-- the configuration is wrong -/
  | config (e : ConfigError)
  /-- the job graph is wrong -/
  | graph (e : GraphError)
  /-- strict mode: an action has no known commit -/
  | unpinnedAction (repo version : String)
  /-- the configuration block is no YAML of the expected shape -/
  | malformedYaml
  /-- the document cannot be read -/
  | unreadableFile
  deriving Repr, DecidableEq, Inhabited

namespace CompileError

/-- The text of an error. -/
def message : CompileError → String
  | .condition e => "Expression parse error: " ++ e.message
  | .config e => "Configuration error: " ++ e.message
  | .graph e => "Job graph error: " ++ e.message
  | .unpinnedAction repo version =>
    "Unable to pin action " ++ repo ++ "@" ++ version ++ " to a commit SHA"
  | .malformedYaml => "malformed YAML"
  | .unreadableFile => "No such file or directory (os error 2)"

/-- The text of the error behind an error, where there is one. -/
def cause : CompileError → Option String
  | .condition e => some e.message
  | .config e => some e.message
  | .graph e => some e.message
  | _ => none

end CompileError

end AgentPipeline
