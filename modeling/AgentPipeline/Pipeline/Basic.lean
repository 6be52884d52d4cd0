import AgentPipeline.Pipeline.Dispatch
import AgentPipeline.Job.Graph
import AgentPipeline.Workflow.Document

/-!
# Pipelines

A workflow is compiled to a pipeline: a valid graph of the jobs that are generated from it
and of its own jobs, with the events that start it.

## Main definitions

* `Compiler`: the options of a compilation, and who runs the agent.
* `Pipeline`, `Pipeline.render`: pipelines and their text.
* `Compiler.compile`, `Compiler.compileDocument`, `Compiler.compileFile`: the pipeline of
  a workflow.
-/

namespace AgentPipeline

/-- The pipeline of a workflow. -/
structure Pipeline where
  name : String
  triggers : Dictionary Yaml.Value
  /-- the concurrency group -/
  concurrency : Option String
  jobs : JobGraph

instance : Inhabited Pipeline := ⟨⟨"", .empty, none, .empty⟩⟩

namespace Pipeline

/-- The comment at the start of a pipeline. -/
def header : String :=
  "# This file was generated by awc. Do not edit it by hand;\n" ++
    "# edit the source workflow and recompile instead.\n\n"

/-- The events of a pipeline as a value. -/
def triggerValue (p : Pipeline) : Yaml.Value :=
  .mapping (p.triggers.entries.map fun e => (.string e.1, e.2))

/-- The entries in front of the jobs. -/
def preamble (p : Pipeline) : String :=
  Yaml.entry 0 "name" p.name ++ "\n" ++ Yaml.valueEntry 0 "on" p.triggerValue ++ "\n" ++
    (match p.concurrency with
      | some group => "concurrency:\n" ++ Yaml.entry 2 "group" group ++ "\n"
      | none => "")

/-- The text of a pipeline. -/
def render (p : Pipeline) : Except GraphError String := do
  pure (header ++ p.preamble ++ "\n" ++ (← p.jobs.render))

end Pipeline

/-- How workflows are compiled. -/
structure Compiler where
  options : Options
  /-- the look-up of commits that goes before the catalog -/
  lookup : ShaLookup := fun _ _ => none
  /-- the steps that run the agent, if the engine of the workflow does not -/
  engine : Option (Workflow → List Step) := none

namespace Compiler

/-- The steps that run the agent of a workflow. -/
def engineSteps (c : Compiler) (w : Workflow) : List Step :=
  match c.engine with
  | some steps => steps w
  | none => w.engine.steps w

/-- The context of a workflow. -/
def context (c : Compiler) (w : Workflow) (sourceStem : Option String) : Context :=
  .ofWorkflow w c.options c.lookup sourceStem

/-- The generated jobs of a workflow, besides the author's own ones. -/
structure Generated where
  customJobs : List CustomJob
  preActivation : Option PreActivation
  activation : Activation
  agent : Job
  safeOutputs : Option Job

/-- Generate the jobs of a workflow. -/
def generate (c : Compiler) (ctx : Context) : Except CompileError Generated := do
  let customJobs ← ctx.workflow.customJobs.mapError .config
  let preActivation ← PreActivation.build ctx
  let activation ← Activation.build ctx preActivation customJobs
  let agent ←
    Agent.build ctx activation customJobs preActivation.isSome (c.engineSteps ctx.workflow)
  let safeOutputs ← Dispatch.build ctx activation.job.isSome
  pure ⟨customJobs, preActivation, activation, agent, safeOutputs⟩

/-- The jobs in front of the author's own ones. -/
def Generated.control (g : Generated) : List Job :=
  (g.preActivation.map (·.job)).toList ++ g.activation.job.toList ++ [g.agent]

/-- The graph of the generated and the author's own jobs. -/
def assemble (ctx : Context) (g : Generated) : Except CompileError JobGraph := do
  let graph ← (JobGraph.empty.addAll g.control).mapError .graph
  let graph ← g.customJobs.foldlM (fun graph custom => do
    let job ← (custom.toJob ctx.runner g.activation.job.isSome).mapError .config
    (graph.add job).mapError CompileError.graph) graph
  (graph.addAll g.safeOutputs.toList).mapError .graph

/-- The pipeline of a workflow, whose file has the given stem if it has one. -/
def compileFrom (c : Compiler) (w : Workflow) (sourceStem : Option String) :
    Except CompileError Pipeline := do
  let ctx := c.context w sourceStem
  let jobs ← assemble ctx (← c.generate ctx)
  jobs.validate.mapError .graph
  pure ⟨w.name, w.triggers, w.concurrency, jobs⟩

/-- The pipeline of a workflow. -/
def compile (c : Compiler) (w : Workflow) : Except CompileError Pipeline :=
  c.compileFrom w none

/-- The pipeline of the workflow that a document describes. -/
def compileDocument (c : Compiler) (content : String) : Except CompileError Pipeline := do
  c.compile (← Workflow.parse content)

/-- The pipeline of the workflow that a file describes, given its stem and its content if
it can be read. -/
def compileFile (c : Compiler) (stem : String) (content : Option String) :
    Except CompileError Pipeline :=
  match content with
  | some content => do c.compileFrom (← Workflow.parseFile stem content) (some stem)
  | none => .error .unreadableFile

end Compiler

end AgentPipeline
