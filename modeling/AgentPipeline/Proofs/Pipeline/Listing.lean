import AgentPipeline.Proofs.Job.Sections
import AgentPipeline.Proofs.Pipeline.Tokens

/-!
# The jobs of a pipeline and their text

Each pipeline has a valid graph: all needed jobs exist, no job comes after itself, and each
job needs the jobs that its expressions refer to (`closed_acyclic_covered`). So the jobs have
an order, and the text of the pipeline has the entry of each of them once, behind those of the
jobs that it needs (`order_and_render`). An entry is what `Job.IsEntry` says, a line with the name
of the job and its sections below; the theorem does not mention the function that writes it.
-/

namespace AgentPipeline

/-- The texts of jobs are their entries, one by one. -/
theorem Job.forall₂_isEntry_render (jobs : List Job) :
    List.Forall₂ Job.IsEntry jobs (jobs.map Job.render) := by
  induction jobs with
  | nil => exact .nil
  | cons job jobs ih => exact .cons (isEntry_render job) ih

namespace Compiler

/-! ### Validity -/

/-- **Valid graphs.** A graph passes the validation exactly if all needed jobs exist, no job
comes after itself, and each job needs the jobs that its expressions refer to; and so it is
for the graph of each pipeline. -/
theorem closed_acyclic_covered :
    (∀ g : JobGraph, g.validate = .ok () ↔ g.Closed ∧ g.Acyclic ∧ g.Covered) ∧
    ∀ (c : Compiler) (w : Workflow) (sourceStem : Option String) (p : Pipeline),
      c.compileFrom w sourceStem = .ok p →
        p.jobs.Closed ∧ p.jobs.Acyclic ∧ p.jobs.Covered := by
  refine ⟨fun g => JobGraph.validate_eq_ok_iff, fun c w sourceStem p h => ?_⟩
  exact JobGraph.validate_eq_ok_iff.mp (validate_of_compileFrom h)

/-- The condition of the safe outputs job refers to the agent job, and the job needs it. -/
theorem closed_acyclic_covered_posting :
    ∃ p, running.compileFrom (posting "token") none = .ok p ∧
      (p.jobs.Closed ∧ p.jobs.Acyclic ∧ p.jobs.Covered) ∧
      ∃ job ∈ p.jobs.members, ∃ expression ∈ job.expressions,
        Names.agentJob ∈ (Reference.needsReferences expression).toList ∧
          Names.agentJob ∈ job.needs := by
  obtain ⟨p, hp, horigin⟩ := exists_compileFrom_posting (show '$' ∉ "token".toList by decide)
  have hvalid := closed_acyclic_covered.2 _ _ _ p hp
  have hjob : postingJob "token" ∈ p.jobs.members := (horigin _).mpr (.safeOutputs rfl)
  have hexpression : Clause.agentCompleted.render ∈ (postingJob "token").expressions :=
    List.mem_append_left _ (List.mem_append_left _ (List.mem_singleton_self _))
  have hrefers :
      Names.agentJob ∈ (Reference.needsReferences Clause.agentCompleted.render).toList := by
    decide +kernel
  exact ⟨p, hp, hvalid, _, hjob, _, hexpression, hrefers,
    hvalid.2.2 _ hjob _ hexpression _ hrefers⟩

/-! ### Order and text -/

/-- **The order of the jobs.** In a graph that is closed and acyclic, the search finds an
order of all jobs, each once and behind those that it needs. The text of a pipeline, which
there always is, has the entries of its jobs in such an order, and nothing else behind its
preamble. -/
theorem order_and_render :
    (∀ g : JobGraph, g.Closed → g.Acyclic →
      ∃ jobs : List Job, g.order = .ok (jobs.map (·.name)) ∧ jobs.Perm g.members ∧
        g.IsOrder (jobs.map (·.name))) ∧
    ∀ (c : Compiler) (w : Workflow) (sourceStem : Option String) (p : Pipeline),
      c.compileFrom w sourceStem = .ok p →
        ∃ (jobs : List Job) (entries : List String), jobs.Perm p.jobs.members ∧
          p.jobs.IsOrder (jobs.map (·.name)) ∧ List.Forall₂ Job.IsEntry jobs entries ∧
          p.render = .ok (Pipeline.header ++ p.preamble ++ "\n" ++
            ("jobs:" ++ String.join (entries.map ("\n" ++ ·)) ++ "\n")) := by
  refine ⟨fun g => JobGraph.exists_jobs_of_order, fun c w sourceStem p h => ?_⟩
  have hvalid : p.jobs.validate = .ok () := validate_of_compileFrom h
  obtain ⟨hclosed, hacyclic, -⟩ := JobGraph.validate_eq_ok_iff.mp hvalid
  obtain ⟨jobs, horder, hperm, hisOrder⟩ := JobGraph.exists_jobs_of_order hclosed hacyclic
  refine ⟨jobs, jobs.map Job.render, hperm, hisOrder, Job.forall₂_isEntry_render jobs, ?_⟩
  rw [Pipeline.render, JobGraph.render_eq_ok hvalid horder hperm, List.map_map]
  rfl

/-- The pipeline of a workflow that posts issues has an agent job and a safe outputs job, which needs
the other one. These have one order only. -/
theorem names_eq_of_isOrder_posting {p : Pipeline} {names : List String}
    (horigin : ∀ job, job ∈ p.jobs.members ↔
      (posted "token").Origin (running.context (posting "token") none) job)
    (h : p.jobs.IsOrder names) : names = [Names.agentJob, Names.safeOutputsJob] := by
  have hagent : (posted "token").agent ∈ p.jobs.members := (horigin _).mpr .agent
  have hsafe : postingJob "token" ∈ p.jobs.members := (horigin _).mpr (.safeOutputs rfl)
  have hmem : ∀ name, name ∈ names ↔ name ∈ [Names.agentJob, Names.safeOutputsJob] := by
    intro name
    rw [h.perm.mem_iff, JobGraph.mem_names, List.mem_pair]
    constructor
    · rintro ⟨job, hjob, rfl⟩
      cases (horigin job).mp hjob with
      | preActivation hpre => cases hpre
      | activation hactivation => cases hactivation
      | agent => exact .inl rfl
      | custom hcustom _ => cases hcustom
      | safeOutputs hjob => cases hjob; exact .inr rfl
    · rintro (rfl | rfl)
      · exact ⟨_, hagent, rfl⟩
      · exact ⟨_, hsafe, rfl⟩
  have hperm : names.Perm [Names.agentJob, Names.safeOutputsJob] :=
    (List.perm_ext_iff_of_nodup (h.perm.nodup_iff.mpr p.jobs.nodup_names) (by decide)).mpr hmem
  obtain ⟨first, second, rfl⟩ := List.length_eq_two.mp hperm.length_eq
  -- the safe outputs job cannot be the first one, as the agent job has to be in front of it
  rcases List.mem_pair.mp ((hmem first).mp List.mem_cons_self) with rfl | rfl
  · have hne : Names.agentJob ≠ second := by simpa using hperm.nodup_iff.mpr (by decide)
    rcases List.mem_pair.mp ((hmem second).mp (by simp)) with rfl | rfl
    · exact absurd rfl hne
    · rfl
  · have hneeds : p.jobs.Needs Names.safeOutputsJob Names.agentJob :=
      JobGraph.needs_iff.mpr ⟨_, hsafe, rfl, List.mem_singleton_self _⟩
    cases h.behind [] _ [second] rfl _ hneeds

/-- The entry of the agent job stands in front of that of the safe outputs job, each under its
name. -/
theorem order_and_render_posting :
    ∃ (p : Pipeline) (jobs : List Job) (agent safeOutputs : String),
      running.compileFrom (posting "token") none = .ok p ∧
      jobs.map (·.name) = [Names.agentJob, Names.safeOutputsJob] ∧
      p.jobs.order = .ok (jobs.map (·.name)) ∧
      List.Forall₂ Job.IsEntry jobs [agent, safeOutputs] ∧
      p.render = .ok (Pipeline.header ++ p.preamble ++ "\n" ++
        ("jobs:" ++ String.join ["\n" ++ agent, "\n" ++ safeOutputs] ++ "\n")) := by
  obtain ⟨p, hp, horigin⟩ := exists_compileFrom_posting (show '$' ∉ "token".toList by decide)
  obtain ⟨hclosed, hacyclic, -⟩ := JobGraph.validate_eq_ok_iff.mp (validate_of_compileFrom hp)
  obtain ⟨found, horder, -, hfound⟩ := order_and_render.1 p.jobs hclosed hacyclic
  obtain ⟨jobs, entries, -, hjobs, hentries, hrender⟩ := order_and_render.2 _ _ _ p hp
  have hnames := names_eq_of_isOrder_posting horigin hjobs
  rw [names_eq_of_isOrder_posting horigin hfound, ← hnames] at horder
  have hlength : entries.length = 2 :=
    hentries.length_eq.symm.trans (by rw [← List.length_map (f := (·.name)), hnames]; rfl)
  obtain ⟨agent, safeOutputs, rfl⟩ := List.length_eq_two.mp hlength
  exact ⟨p, jobs, agent, safeOutputs, hp, hnames, horder, hentries, hrender⟩

end Compiler

end AgentPipeline
