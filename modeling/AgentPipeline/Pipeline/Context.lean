import AgentPipeline.Workflow.Basic
import AgentPipeline.Pin.Resolver

/-!
# Compilation contexts

What all jobs of a pipeline are generated from: the workflow, the options, and how the
references to actions are found. Strict mode is in effect if the options or the workflow
ask for it; the runner is that of the workflow, or else the default one.

The name of the file that the pipeline is written to comes from the file of the workflow,
or else from the name of the workflow as a **slug**: its ASCII letters in lower case and its
digits, with one dash for what is between them.

## Main definitions

* `Options`: the options of a compilation.
* `Context`, with `pin` and `fileStem`.
* `slug`: names of files from names of workflows.
-/

namespace AgentPipeline

/-- The options of a compilation. -/
structure Options where
  /-- whether unpinned actions, write access of the agent and implicit project tokens are
  errors -/
  strict : Bool := false
  /-- the runner of workflows that name none -/
  defaultRunner : String := Names.defaultRunner
  /-- the time that deadlines are seen from, in seconds since the start of 1970 -/
  referenceTime : Int
  deriving Repr, DecidableEq, Inhabited

/-! ### Slugs -/

/-- The letters and digits of a name with one dash for what is between them; no dash comes
behind another one, nor first if `afterDash` holds. -/
def slugFrom (afterDash : Bool) : List Char → List Char
  | [] => []
  | c :: cs =>
    if c.isAlphanum then c.toLower :: slugFrom false cs
    else if afterDash then slugFrom true cs
    else '-' :: slugFrom true cs

/-- The slug of a name. -/
def slug (name : String) : String :=
  let cs := Text.dropTail (· == '-') (slugFrom true name.toList)
  if cs = [] then "workflow" else String.ofList cs

/-! ### Contexts -/

/-- What the jobs of a pipeline are generated from. -/
structure Context where
  workflow : Workflow
  /-- whether strict mode is in effect -/
  strict : Bool
  /-- the runner of the generated jobs -/
  runner : String
  /-- the time that deadlines are seen from -/
  now : Int
  /-- the stem of the workflow's file -/
  sourceStem : Option String
  /-- how the references to actions are found -/
  resolver : Resolver

namespace Context

/-- The context of a workflow. -/
def ofWorkflow (w : Workflow) (options : Options) (lookup : ShaLookup)
    (sourceStem : Option String) : Context where
  workflow := w
  strict := options.strict || w.strict
  runner := w.runsOn.getD options.defaultRunner
  now := options.referenceTime
  sourceStem
  resolver := ⟨options.strict || w.strict, lookup, Pin.catalog⟩

/-- The reference to an action of a version. -/
def pin (ctx : Context) (action : String × String) : Except CompileError String :=
  ctx.resolver.resolve action.1 action.2

/-- The stem of the file that the pipeline is written to. -/
def fileStem (ctx : Context) : String :=
  ctx.sourceStem.getD (slug ctx.workflow.name)

end Context

end AgentPipeline
