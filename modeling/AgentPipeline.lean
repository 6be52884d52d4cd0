import AgentPipeline.Command.Arguments
import AgentPipeline.Command.Assignment
import AgentPipeline.Command.Environment
import AgentPipeline.Command.Help
import AgentPipeline.Command.Invocation
import AgentPipeline.Command.Outcome
import AgentPipeline.Command.Path
import AgentPipeline.Condition.Clause
import AgentPipeline.Condition.Parser
import AgentPipeline.Condition.Quotes
import AgentPipeline.Condition.Reference
import AgentPipeline.Condition.Token
import AgentPipeline.Condition.Tree
import AgentPipeline.Condition.Wrap
import AgentPipeline.Dictionary
import AgentPipeline.Error
import AgentPipeline.Job.Basic
import AgentPipeline.Job.Graph
import AgentPipeline.Job.Step
import AgentPipeline.Main
import AgentPipeline.Names
import AgentPipeline.Number.Decimal
import AgentPipeline.Number.Double
import AgentPipeline.Permission.Basic
import AgentPipeline.Permission.Scope
import AgentPipeline.Pin.Resolver
import AgentPipeline.Pin.Version
import AgentPipeline.Pipeline.Activation
import AgentPipeline.Pipeline.Agent
import AgentPipeline.Pipeline.Basic
import AgentPipeline.Pipeline.Context
import AgentPipeline.Pipeline.CustomJob
import AgentPipeline.Pipeline.Dispatch
import AgentPipeline.Pipeline.PreActivation
import AgentPipeline.Pipeline.Prompt
import AgentPipeline.Proofs.Condition.Between
import AgentPipeline.Proofs.Condition.Breaks
import AgentPipeline.Proofs.Condition.Call
import AgentPipeline.Proofs.Condition.Clause
import AgentPipeline.Proofs.Condition.Disjunction
import AgentPipeline.Proofs.Condition.ErrorKinds
import AgentPipeline.Proofs.Condition.Failure
import AgentPipeline.Proofs.Condition.Grammar
import AgentPipeline.Proofs.Condition.GuardedParse
import AgentPipeline.Proofs.Condition.GuardedScan
import AgentPipeline.Proofs.Condition.Layout
import AgentPipeline.Proofs.Condition.Lines
import AgentPipeline.Proofs.Condition.Literal
import AgentPipeline.Proofs.Condition.Meaning
import AgentPipeline.Proofs.Condition.Nesting
import AgentPipeline.Proofs.Condition.Position
import AgentPipeline.Proofs.Condition.Quotation
import AgentPipeline.Proofs.Condition.Reference
import AgentPipeline.Proofs.Condition.Reflow
import AgentPipeline.Proofs.Condition.Rendering
import AgentPipeline.Proofs.Condition.Scan
import AgentPipeline.Proofs.Condition.SpacedScan
import AgentPipeline.Proofs.Condition.Spacing
import AgentPipeline.Proofs.Condition.Visit
import AgentPipeline.Proofs.Condition.Wrap
import AgentPipeline.Proofs.Except
import AgentPipeline.Proofs.Job.Cycle
import AgentPipeline.Proofs.Job.Graph
import AgentPipeline.Proofs.Job.Grounded
import AgentPipeline.Proofs.Job.Insertion
import AgentPipeline.Proofs.Job.Mention
import AgentPipeline.Proofs.Job.Order
import AgentPipeline.Proofs.Job.Search
import AgentPipeline.Proofs.Job.Sections
import AgentPipeline.Proofs.Number.Numeral
import AgentPipeline.Proofs.Permission.Merge
import AgentPipeline.Proofs.Permission.Reachable
import AgentPipeline.Proofs.Permission.Rendering
import AgentPipeline.Proofs.Pin.Catalog
import AgentPipeline.Proofs.Pin.Resolver
import AgentPipeline.Proofs.Pin.Version
import AgentPipeline.Proofs.Pipeline.Activation
import AgentPipeline.Proofs.Pipeline.Agent
import AgentPipeline.Proofs.Pipeline.Assembly
import AgentPipeline.Proofs.Pipeline.Conversion
import AgentPipeline.Proofs.Pipeline.Coverage
import AgentPipeline.Proofs.Pipeline.Cycle
import AgentPipeline.Proofs.Pipeline.Definition
import AgentPipeline.Proofs.Pipeline.Dispatch
import AgentPipeline.Proofs.Pipeline.Failure
import AgentPipeline.Proofs.Pipeline.Gate
import AgentPipeline.Proofs.Pipeline.Grounded
import AgentPipeline.Proofs.Pipeline.Guarantee
import AgentPipeline.Proofs.Pipeline.Listing
import AgentPipeline.Proofs.Pipeline.Mention
import AgentPipeline.Proofs.Pipeline.Place
import AgentPipeline.Proofs.Pipeline.PreActivation
import AgentPipeline.Proofs.Pipeline.Presence
import AgentPipeline.Proofs.Pipeline.Privilege
import AgentPipeline.Proofs.Pipeline.Prompt
import AgentPipeline.Proofs.Pipeline.Repetition
import AgentPipeline.Proofs.Pipeline.Report
import AgentPipeline.Proofs.Pipeline.Root
import AgentPipeline.Proofs.Pipeline.Slug
import AgentPipeline.Proofs.Pipeline.Strict
import AgentPipeline.Proofs.Pipeline.Supply
import AgentPipeline.Proofs.Pipeline.Tokens
import AgentPipeline.Proofs.Pipeline.UserCondition
import AgentPipeline.Proofs.Pipeline.Validity
import AgentPipeline.Proofs.Reference.Enclosed
import AgentPipeline.Proofs.Reference.Grouping
import AgentPipeline.Proofs.Reference.Names
import AgentPipeline.Proofs.Reference.Targets
import AgentPipeline.Proofs.Reference.Templates
import AgentPipeline.Proofs.Reference.Unwrap
import AgentPipeline.Proofs.SafeOutput.Kind
import AgentPipeline.Proofs.Text.Infix
import AgentPipeline.Proofs.Text.Json
import AgentPipeline.Proofs.Text.Line
import AgentPipeline.Proofs.Text.Trim
import AgentPipeline.Proofs.Text.Words
import AgentPipeline.Proofs.Time.Calendar
import AgentPipeline.Proofs.Time.Offset
import AgentPipeline.Proofs.Time.Resolve
import AgentPipeline.Proofs.Time.Stamp
import AgentPipeline.Proofs.Workflow.Frontmatter
import AgentPipeline.Proofs.Workflow.Trigger
import AgentPipeline.Proofs.Yaml.Abreast
import AgentPipeline.Proofs.Yaml.Block
import AgentPipeline.Proofs.Yaml.Document
import AgentPipeline.Proofs.Yaml.Entry
import AgentPipeline.Proofs.Yaml.Escape
import AgentPipeline.Proofs.Yaml.Folded
import AgentPipeline.Proofs.Yaml.Indent
import AgentPipeline.Proofs.Yaml.Inline
import AgentPipeline.Proofs.Yaml.Literal
import AgentPipeline.Proofs.Yaml.Node
import AgentPipeline.Proofs.Yaml.Progress
import AgentPipeline.Proofs.Yaml.Scalar
import AgentPipeline.Proofs.Yaml.Scan
import AgentPipeline.Proofs.Yaml.Spelling
import AgentPipeline.Proofs.Yaml.Tree
import AgentPipeline.Proofs.Yaml.Verbatim
import AgentPipeline.Proofs.Yaml.WellFormed
import AgentPipeline.Proofs.Yaml.Word
import AgentPipeline.SafeOutput.Kind
import AgentPipeline.SafeOutput.Settings
import AgentPipeline.Text.Blank
import AgentPipeline.Text.CharClass
import AgentPipeline.Text.Json
import AgentPipeline.Text.Line
import AgentPipeline.Text.Quoted
import AgentPipeline.Time.Calendar
import AgentPipeline.Time.Deadline
import AgentPipeline.Workflow.Basic
import AgentPipeline.Workflow.Document
import AgentPipeline.Workflow.Section
import AgentPipeline.Workflow.Trigger
import AgentPipeline.Yaml.Character
import AgentPipeline.Yaml.Document
import AgentPipeline.Yaml.Entry
import AgentPipeline.Yaml.Node
import AgentPipeline.Yaml.Plain
import AgentPipeline.Yaml.Printer
import AgentPipeline.Yaml.Scalar
import AgentPipeline.Yaml.Tag
import AgentPipeline.Yaml.Token
import AgentPipeline.Yaml.Value
