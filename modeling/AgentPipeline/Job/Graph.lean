import AgentPipeline.Job.Basic
import AgentPipeline.Error

/-!
# Job graphs

The jobs of a pipeline form a graph: a job comes after the jobs that it needs. A graph is
**valid** if all needed jobs exist, no job comes after itself, and a job needs each job
that its expressions refer to.

The order of the jobs is found by a search through the jobs in the order of their names,
which visits behind each job those that need it, and puts a job in front of all that were
visited behind it. Such an order respects all needs unless they form a cycle, which a look
through the order reveals.

## Main definitions

* `JobGraph`, `JobGraph.add`, `JobGraph.addInPlace`: graphs, and one more job, as a new graph
  or in place.
* `JobGraph.order`: the jobs in an order that respects their needs.
* `JobGraph.validate`: the first thing that is wrong with a graph.
* `JobGraph.render`: the entry of all jobs in a pipeline.
-/

namespace AgentPipeline

/-- The jobs of a pipeline, by their names. -/
structure JobGraph where
  jobs : Dictionary Job
  /-- each job is found under its name -/
  named : ∀ e ∈ jobs.entries, e.1 = e.2.name

namespace JobGraph

/-- The graph without jobs. -/
def empty : JobGraph := ⟨.empty, by simp [Dictionary.empty]⟩

instance : Inhabited JobGraph := ⟨empty⟩

/-- The job with a name. -/
def get? (g : JobGraph) (name : String) : Option Job := g.jobs.get? name

/-- Whether there is a job with a name. -/
def has (g : JobGraph) (name : String) : Bool := g.jobs.contains name

/-- The names of the jobs, in order. -/
def names (g : JobGraph) : List String := g.jobs.keys

/-- The jobs, in the order of their names. -/
def members (g : JobGraph) : List Job := g.jobs.values

/-- The number of jobs. -/
def size (g : JobGraph) : Nat := g.jobs.size

/-- The graph with a job under its name, in place of any other job of this name. -/
def insert (g : JobGraph) (job : Job) : JobGraph where
  jobs := g.jobs.insert job.name job
  named e he := by
    rcases Dictionary.mem_insertEntry he with rfl | he
    · rfl
    · exact g.named e he

/-- The graph with one more job, whose name must be new. -/
def add (g : JobGraph) (job : Job) : Except GraphError JobGraph :=
  if g.has job.name then .error (.duplicateJob job.name) else .ok (g.insert job)

/-- Add a job to the graph that is the state. The name is looked up first, and the state is
changed behind the check only. -/
def addInPlace (job : Job) : ExceptT GraphError (StateM JobGraph) Unit := do
  if (← get).has job.name then throw (.duplicateJob job.name) else modify (·.insert job)

/-- The graph with some more jobs. -/
def addAll (g : JobGraph) (jobs : List Job) : Except GraphError JobGraph :=
  jobs.foldlM add g

/-! ### Order -/

/-- The names of the jobs that need a job. -/
def successors (g : JobGraph) (name : String) : List String :=
  (g.members.filter fun job => job.needs.contains name).map (·.name)

/-- How far a search has come. -/
structure Search where
  /-- the names of the jobs that were visited -/
  visited : List String
  /-- the names of the jobs that are done, the last one in front -/
  order : List String

/-- Visit a job and all jobs behind it. The fuel bounds the length of a path. -/
def visit (g : JobGraph) : Nat → Search → String → Except GraphError Search
  | 0, s, _ => .ok s
  | fuel + 1, s, name =>
    if name ∈ s.visited then .ok s
    else
      let next := g.successors name
      if name ∈ next then .error (.cycleDetected name)
      else do
        let s ← next.foldlM (visit g fuel) ⟨name :: s.visited, s.order⟩
        pure { s with order := name :: s.order }

/-- Check that each job of a list comes after the jobs it needs, where `before` are the
names in front of the list. -/
def checkOrder (g : JobGraph) (before : List String) : List String → Except GraphError Unit
  | [] => .ok ()
  | name :: rest =>
    let needs := ((g.get? name).map (·.needs)).getD []
    match needs.find? fun need => !before.contains need with
    | some need => .error (.cycleDetected need)
    | none => checkOrder g (name :: before) rest

/-- Check that all needed jobs exist. -/
def checkNeeds (g : JobGraph) : Except GraphError Unit :=
  g.members.forM fun job =>
    match job.needs.find? fun need => !g.has need with
    | some need => .error (.unknownDependency job.name need)
    | none => .ok ()

/-- The names of the jobs in an order in which each job comes after the jobs it needs. -/
def order (g : JobGraph) : Except GraphError (List String) := do
  g.checkNeeds
  let s ← g.names.foldlM (visit g (g.size + 1)) ⟨[], []⟩
  g.checkOrder [] s.order
  pure s.order

/-! ### Validity -/

/-- The jobs that an expression of a job refers to, as far as the job does not need
them. -/
def unneeded (job : Job) (expression : String) : List String :=
  (Reference.needsReferences expression).toList.filter fun name => !job.needs.contains name

/-- Check that jobs need the jobs that their expressions refer to. -/
def checkReferences (g : JobGraph) : Except GraphError Unit :=
  g.members.forM fun job =>
    match job.expressions.flatMap (unneeded job) with
    | name :: _ => .error (.missingDirectDependency job.name name)
    | [] => .ok ()

/-- Check that a graph is valid. -/
def validate (g : JobGraph) : Except GraphError Unit := do
  let _ ← g.order
  g.checkReferences

/-- The entry of all jobs in a pipeline, each job after the jobs it needs. -/
def render (g : JobGraph) : Except GraphError String := do
  g.validate
  let names ← g.order
  let jobs := names.filterMap g.get?
  pure ("jobs:" ++ String.join (jobs.map fun job => "\n" ++ job.render) ++ "\n")

end JobGraph

end AgentPipeline
