import AgentPipeline.Job.Graph
import AgentPipeline.Proofs.Except
import Mathlib.Logic.Relation

/-!
# Jobs and needs of a job graph

A job graph finds each of its jobs under the job's name (`get?_eq_some_iff`). `Needs` is the
relation of its edges: from a job to one that it needs. A graph is **closed** if the edges
lead to jobs of the graph, and **acyclic** if they never lead back.

A graph that some jobs were added to has these jobs besides the ones it had
(`mem_members_addAll`), and nothing but a name that is taken keeps jobs out
(`exists_addAll`).
-/

namespace AgentPipeline

namespace JobGraph

variable {g g' : JobGraph} {name : String}

/-- A job is in the graph if the graph finds it under its name. -/
theorem mem_members {job : Job} : job ∈ g.members ↔ g.get? job.name = some job := by
  rw [get?, Dictionary.get?_eq_some_iff, members, Dictionary.values, List.mem_map]
  constructor
  · rintro ⟨e, he, rfl⟩
    rwa [← g.named e he]
  · intro h
    exact ⟨_, h, rfl⟩

/-- What the graph finds under a name is its job of this name. -/
theorem get?_eq_some_iff {job : Job} :
    g.get? name = some job ↔ job ∈ g.members ∧ job.name = name := by
  refine ⟨fun h => ?_, fun ⟨hmem, hname⟩ => hname ▸ mem_members.mp hmem⟩
  obtain rfl : name = job.name := g.named _ (Dictionary.get?_eq_some_iff.mp h)
  exact ⟨mem_members.mpr h, rfl⟩

/-- The names of a graph are those of its jobs. -/
theorem mem_names : name ∈ g.names ↔ ∃ job ∈ g.members, job.name = name := by
  simp only [← get?_eq_some_iff, names, ← Dictionary.contains_iff_mem_keys,
    Dictionary.contains, Option.isSome_iff_exists]
  exact Iff.rfl

/-- The graph has a job if and only if the name is one of its names. -/
theorem has_iff_mem_names : g.has name = true ↔ name ∈ g.names :=
  Dictionary.contains_iff_mem_keys

/-- No name is there twice. -/
theorem nodup_names (g : JobGraph) : g.names.Nodup := g.jobs.nodup_keys

/-- The job with the first name needs the job with the second name. -/
def Needs (g : JobGraph) (name need : String) : Prop :=
  ∃ job, g.get? name = some job ∧ need ∈ job.needs

/-- The needs of a graph are those of its jobs. -/
theorem needs_iff {need : String} :
    g.Needs name need ↔ ∃ job ∈ g.members, job.name = name ∧ need ∈ job.needs := by
  simp only [Needs, get?_eq_some_iff, and_assoc]

/-- The needs of a name are those of the job with this name. -/
theorem needs_iff_mem {job : Job} {need : String} (h : job ∈ g.members) :
    g.Needs job.name need ↔ need ∈ job.needs := by
  simp [Needs, mem_members.mp h]

/-- Only jobs of the graph have needs. -/
theorem Needs.mem_names {need : String} (h : g.Needs name need) : name ∈ g.names := by
  obtain ⟨job, hmem, hname, -⟩ := needs_iff.mp h
  exact JobGraph.mem_names.mpr ⟨job, hmem, hname⟩

/-- Behind a job come those that need it. -/
theorem mem_successors {next : String} : next ∈ g.successors name ↔ g.Needs next name := by
  simp only [successors, List.mem_map, List.mem_filter, List.contains_iff_mem, needs_iff,
    and_assoc, and_comm (a := _ = next)]

/-- The jobs behind a job are jobs of the graph. -/
theorem successors_subset : g.successors name ⊆ g.names :=
  fun _ h => (mem_successors.mp h).mem_names

/-- All needed jobs exist. -/
def Closed (g : JobGraph) : Prop := ∀ name need, g.Needs name need → need ∈ g.names

/-- No job comes after itself. -/
def Acyclic (g : JobGraph) : Prop := ∀ name, ¬Relation.TransGen g.Needs name name

/-! ### More jobs -/

/-- An addition succeeds only if the name is new. -/
theorem add_eq_ok {job : Job} (h : g.add job = .ok g') :
    job.name ∉ g.names ∧
      ∀ name, g'.get? name = if name = job.name then some job else g.get? name := by
  unfold add at h
  split at h
  · cases h
  · next hnew =>
    obtain rfl := Except.ok.inj h
    exact ⟨mt has_iff_mem_names.mpr hnew, fun name => Dictionary.get?_insert _ _ _ _⟩

/-- A graph with a job added has this job and those that it had. -/
theorem mem_members_add {job j : Job} (h : g.add job = .ok g') :
    j ∈ g'.members ↔ j ∈ g.members ∨ j = job := by
  obtain ⟨hnew, hget⟩ := add_eq_ok h
  rw [mem_members, mem_members, hget]
  split
  · next heq =>
    have hnone : g.get? j.name ≠ some j := fun hj =>
      hnew (heq ▸ mem_names.mpr ⟨j, mem_members.mpr hj, rfl⟩)
    rw [Option.some.injEq, or_iff_right hnone, eq_comm]
  · next hne => exact (or_iff_left fun heq => hne (congrArg Job.name heq)).symm

/-- An addition succeeds if the name is new. -/
theorem exists_add {job : Job} (h : job.name ∉ g.names) : ∃ g', g.add job = .ok g' := by
  unfold add
  rw [if_neg (mt has_iff_mem_names.mp h)]
  exact ⟨_, rfl⟩

/-- The first of some jobs is added in front of the others. -/
theorem addAll_cons (g : JobGraph) (job : Job) (jobs : List Job) :
    g.addAll (job :: jobs) = g.add job >>= fun g' => g'.addAll jobs := List.foldlM_cons

/-- Jobs are added one group after the other. -/
theorem addAll_append (g : JobGraph) (jobs more : List Job) :
    g.addAll (jobs ++ more) = g.addAll jobs >>= fun g' => g'.addAll more := List.foldlM_append

/-- A graph with some jobs added has these and those that it had. -/
theorem mem_members_addAll {jobs : List Job} {j : Job} (h : g.addAll jobs = .ok g') :
    j ∈ g'.members ↔ j ∈ g.members ∨ j ∈ jobs := by
  induction jobs generalizing g with
  | nil =>
      obtain rfl := Except.ok.inj h
      simp
  | cons job jobs ih =>
      rw [addAll_cons] at h
      obtain ⟨g₁, hadd, hrest⟩ := bind_eq_ok_iff.mp h
      rw [ih hrest, mem_members_add hadd, List.mem_cons, or_assoc]

/-- It has the names of both. -/
theorem mem_names_addAll {jobs : List Job} (h : g.addAll jobs = .ok g') :
    name ∈ g'.names ↔ name ∈ g.names ∨ name ∈ jobs.map (·.name) := by
  simp only [mem_names, mem_members_addAll h, List.mem_map, or_and_right, exists_or]

/-- Jobs with different names that are all new can be added. -/
theorem exists_addAll {jobs : List Job} (hnodup : (jobs.map (·.name)).Nodup)
    (hnew : ∀ job ∈ jobs, job.name ∉ g.names) : ∃ g', g.addAll jobs = .ok g' := by
  induction jobs generalizing g with
  | nil => exact ⟨g, rfl⟩
  | cons job jobs ih =>
      rw [List.map_cons, List.nodup_cons] at hnodup
      obtain ⟨g₁, hadd⟩ := exists_add (hnew job List.mem_cons_self)
      rw [addAll_cons, hadd, ok_bind]
      refine ih hnodup.2 fun j hj hmem => ?_
      obtain ⟨j', hj', hname⟩ := mem_names.mp hmem
      rcases (mem_members_add hadd).mp hj' with hold | rfl
      · exact hnew j (List.mem_cons_of_mem _ hj) (mem_names.mpr ⟨j', hold, hname⟩)
      · exact hnodup.1 (List.mem_map.mpr ⟨j, hj, hname.symm⟩)

end JobGraph

end AgentPipeline
