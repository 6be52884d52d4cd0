import AgentPipeline.Proofs.Job.Graph

/-!
# Adding jobs

Jobs come to a graph one after the other, and each is either added or refused because its name
is taken.

The order in which they come leaves no trace. A graph keeps its jobs in the order of their names,
so it is known by which jobs it has (`eq_of_mem_members_iff`), and jobs with different names make
up the same graph in whatever order they are added (`exists_addAll_of_perm`). All that is read off
the graph, its order and what is wrong with it included, is then the same.

A refusal leaves no trace either. For this the graph is looked at as the state of whoever adds
the jobs (`addInPlace`): the state lies under the errors, so what an addition does to it before it
is refused stays. Nothing is done to it then, because the name is looked up before the job is
inserted (`run_addInPlace`).
-/

namespace AgentPipeline.JobGraph

variable {g g' : JobGraph} {job : Job}

/-- A graph is known by its jobs. -/
theorem eq_of_mem_members_iff (h : ∀ job, job ∈ g.members ↔ job ∈ g'.members) : g = g' := by
  have hget : ∀ name, g.get? name = g'.get? name := fun name =>
    Option.ext fun job => by rw [get?_eq_some_iff, get?_eq_some_iff, h]
  obtain ⟨jobs, _⟩ := g
  obtain rfl : jobs = g'.jobs := Dictionary.eq_of_get?_eq hget
  rfl

/-- Jobs with different names make up the same graph in whatever order they are added. -/
theorem exists_addAll_of_perm {jobs jobs' : List Job} (hnodup : (jobs.map (·.name)).Nodup)
    (hperm : jobs.Perm jobs') :
    ∃ g, empty.addAll jobs = .ok g ∧ empty.addAll jobs' = .ok g ∧
      ∀ job, job ∈ g.members ↔ job ∈ jobs := by
  have hnew : ∀ (jobs : List Job), ∀ job ∈ jobs, job.name ∉ empty.names :=
    fun _ _ _ => List.not_mem_nil
  have hmem : ∀ {l : List Job} {g : JobGraph}, empty.addAll l = .ok g →
      ∀ job, job ∈ g.members ↔ job ∈ l := fun h job =>
    (mem_members_addAll h).trans (or_iff_right List.not_mem_nil)
  obtain ⟨g, hg⟩ := exists_addAll hnodup (hnew jobs)
  obtain ⟨g', hg'⟩ := exists_addAll ((hperm.map _).nodup_iff.mp hnodup) (hnew jobs')
  obtain rfl : g = g' := eq_of_mem_members_iff fun job => by
    rw [hmem hg, hmem hg', hperm.mem_iff]
  exact ⟨g, hg, hg', hmem hg⟩

/-- **An addition in place** of a job whose name is new leaves the graph with the job, and any
other addition is refused and leaves the graph as it was. -/
theorem run_addInPlace (g : JobGraph) (job : Job) :
    (addInPlace job).run.run g =
      if g.has job.name then (.error (.duplicateJob job.name), g) else (.ok (), g.insert job) := by
  have hcheck : (addInPlace job).run.run g =
      (if g.has job.name then throw (.duplicateJob job.name) else modify (·.insert job) :
        ExceptT GraphError (StateM JobGraph) Unit).run.run g := rfl
  rw [hcheck]
  split <;> rfl

/-- An addition in place is the addition to the graph that is the state: both succeed or fail
alike, and where the addition gives a graph, it is the one that the state has become. -/
theorem add_eq_map_addInPlace (g : JobGraph) (job : Job) :
    g.add job = ((addInPlace job).run.run g).1.map fun _ => ((addInPlace job).run.run g).2 := by
  rw [run_addInPlace, add]
  split <;> rfl

/-- **The order of additions does not count, and a refused one does no harm.** Jobs with
different names can be added in any order, and give graphs with the same names, validity, order
and text, which have these jobs and no others. A job whose name is taken is refused, and the
graph is left as it was. -/
theorem additions_orderless :
    (∀ jobs jobs' : List Job, (jobs.map (·.name)).Nodup → jobs.Perm jobs' →
      ∃ g g', empty.addAll jobs = .ok g ∧ empty.addAll jobs' = .ok g' ∧
        (∀ job, job ∈ g.members ↔ job ∈ jobs) ∧ g.names = g'.names ∧
        g.validate = g'.validate ∧ g.order = g'.order ∧ g.render = g'.render) ∧
    ∀ (g : JobGraph) (job : Job), job.name ∈ g.names →
      (addInPlace job).run.run g = (.error (.duplicateJob job.name), g) := by
  constructor
  · intro jobs jobs' hnodup hperm
    obtain ⟨g, hg, hg', hmem⟩ := exists_addAll_of_perm hnodup hperm
    exact ⟨g, g, hg, hg', hmem, rfl, rfl, rfl, rfl⟩
  · intro g job hname
    rw [run_addInPlace, if_pos (has_iff_mem_names.mpr hname)]

/-- Two jobs, one of which needs the other, in both orders. -/
theorem additions_orderless_build :
    let test : Job := { name := "test", runsOn := "ubuntu", needs := ["build"] }
    let build : Job := { name := "build", runsOn := "ubuntu" }
    ∃ g g', empty.addAll [test, build] = .ok g ∧ empty.addAll [build, test] = .ok g' ∧
      build ∈ g.members ∧ g.order = g'.order ∧
      (addInPlace build).run.run g = (.error (.duplicateJob "build"), g) := by
  intro test build
  obtain ⟨g, g', hg, hg', hmem, -, -, horder, -⟩ :=
    additions_orderless.1 [test, build] [build, test] (by decide) (.swap _ _ _)
  have hbuild : build ∈ g.members :=
    (hmem build).mpr (List.mem_cons_of_mem _ List.mem_cons_self)
  exact ⟨g, g', hg, hg', hbuild, horder,
    additions_orderless.2 g build (mem_names.mpr ⟨build, hbuild, rfl⟩)⟩

end AgentPipeline.JobGraph
