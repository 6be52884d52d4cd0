import AgentPipeline.Pipeline.Basic
import AgentPipeline.Proofs.Job.Order
import AgentPipeline.Proofs.Pipeline.Place

/-!
# The jobs of a pipeline

A pipeline is compiled in three stages: the jobs are generated (`Generates`), they are put
together to a graph one after the other (`assemble_eq_ok_iff`), and the graph is validated.
`compileFrom_eq_ok_iff` takes a compilation apart at these stages, and
`mem_members_of_assemble` says where the jobs of the graph come from. What is generated has
its place: its name, and the jobs that it needs. Each need has one of nine reasons
(`Generated.Edge`).
-/

namespace AgentPipeline.Compiler

variable {c : Compiler} {w : Workflow} {sourceStem : Option String} {ctx : Context}
  {g : Generated} {graph : JobGraph} {job : Job}

/-- **The generated jobs** of a workflow, each made from those in front of it. -/
structure Generates (c : Compiler) (ctx : Context) (g : Generated) : Prop where
  customJobs : ctx.workflow.customJobs = .ok g.customJobs
  preActivation : PreActivation.build ctx = .ok g.preActivation
  activation : Activation.build ctx g.preActivation g.customJobs = .ok g.activation
  agent : Agent.build ctx g.activation g.customJobs g.preActivation.isSome
    (c.engineSteps ctx.workflow) = .ok g.agent
  safeOutputs : Dispatch.build ctx g.activation.job.isSome = .ok g.safeOutputs

/-- The jobs are generated one from the other. -/
theorem generate_eq_ok_iff : c.generate ctx = .ok g ↔ c.Generates ctx g := by
  constructor
  · intro h
    obtain ⟨customJobs, hcustomJobs, h⟩ := bind_eq_ok_iff.mp h
    obtain ⟨preActivation, hpreActivation, h⟩ := bind_eq_ok_iff.mp h
    obtain ⟨activation, hactivation, h⟩ := bind_eq_ok_iff.mp h
    obtain ⟨agent, hagent, h⟩ := bind_eq_ok_iff.mp h
    obtain ⟨safeOutputs, hsafeOutputs, h⟩ := bind_eq_ok_iff.mp h
    obtain rfl := Except.ok.inj h
    exact ⟨mapError_eq_ok_iff.mp hcustomJobs, hpreActivation, hactivation, hagent,
      hsafeOutputs⟩
  · intro h
    rw [generate, mapError_eq_ok_iff.mpr h.customJobs, ok_bind, h.preActivation, ok_bind,
      h.activation, ok_bind, h.agent, ok_bind, h.safeOutputs, ok_bind]
    rfl

/-! ### The places of the generated jobs -/

namespace Generates

/-- The pre-activation job has its name and needs nothing. -/
theorem preActivation_place (hg : c.Generates ctx g) {pre : PreActivation}
    (hpre : g.preActivation = some pre) :
    pre.job.name = Names.preActivationJob ∧ pre.job.needs = [] := by
  obtain ⟨deadline, -, hnone | ⟨-, scriptAction, hsome⟩⟩ :=
    PreActivation.build_eq_ok hg.preActivation
  · rw [hpre] at hnone
    cases hnone.2
  · obtain rfl := Option.some.inj (hpre.symm.trans hsome)
    exact ⟨PreActivation.ofChecks_name .., PreActivation.ofChecks_needs ..⟩

/-- The activation job has its name, and needs the pre-activation job and the gated jobs. -/
theorem activation_place (hg : c.Generates ctx g) (hjob : g.activation.job = some job) :
    job.name = Names.activationJob ∧
      job.needs = Activation.needs g.preActivation.isSome g.customJobs := by
  rcases Activation.build_eq_ok hg.activation with ⟨-, hnone⟩ | ⟨_, scriptAction, -, hsome, -⟩
  · rw [hjob] at hnone
    cases hnone
  · obtain rfl := Option.some.inj (hjob.symm.trans hsome)
    rw [Activation.activationJob_name, Activation.activationJob_needs]
    exact ⟨rfl, rfl⟩

/-- The agent job has its name, and needs the activation job and the jobs that it refers to. -/
theorem agent_place (hg : c.Generates ctx g) :
    g.agent.name = Names.agentJob ∧
      g.agent.needs = Agent.needs g.activation.job.isSome
        (Agent.referencedJobs ctx.workflow (g.activation.agentCondition.map (·.render))
          g.customJobs g.preActivation.isSome) :=
  Agent.place_of_build hg.agent

/-- A job of the author has a name of its own, and waits for the activation job if there is one. -/
theorem custom_place (hg : c.Generates ctx g) {custom : CustomJob}
    (hcustom : custom ∈ g.customJobs) {activationExists : Bool}
    (hjob : custom.toJob ctx.runner activationExists = .ok job) :
    job.name ∉ Names.reservedJobs ∧ (activationExists = true → job.needs ≠ []) := by
  obtain ⟨e, -, hparse⟩ := (mem_of_mapM hg.customJobs).mp hcustom
  obtain ⟨hname, hfree⟩ := CustomJob.parse_eq_ok hparse
  obtain ⟨hjobName, hneeds⟩ := CustomJob.place_of_toJob hjob
  refine ⟨by rwa [hjobName, hname], ?_⟩
  rintro rfl
  rw [hneeds, CustomJob.effectiveNeeds]
  cases custom.needs <;> simp

/-- The safe outputs job has its name, and needs the agent job and the activation job. -/
theorem safeOutputs_place (hg : c.Generates ctx g) (hjob : g.safeOutputs = some job) :
    job.name = Names.safeOutputsJob ∧
      job.needs = Names.agentJob ::
        (if g.activation.job.isSome then [Names.activationJob] else []) :=
  Dispatch.place_of_build (hjob ▸ hg.safeOutputs)

end Generates

/-! ### The graph -/

/-- The author's own jobs become jobs of the graph in their order. -/
theorem foldlM_custom_eq_ok_iff {customJobs : List CustomJob} {runner : String}
    {activationExists : Bool} {graph₀ : JobGraph} :
    customJobs.foldlM (fun graph custom => do
        let job ← (custom.toJob runner activationExists).mapError CompileError.config
        (graph.add job).mapError CompileError.graph) graph₀ = .ok graph ↔
      ∃ jobs, customJobs.mapM (·.toJob runner activationExists) = .ok jobs ∧
        graph₀.addAll jobs = .ok graph := by
  -- by the jobs of the author; converting them all first comes to the same
  induction customJobs generalizing graph₀ with
  | nil => simp [JobGraph.addAll, pure, Except.pure]
  | cons custom rest ih =>
      rw [List.foldlM_cons, List.mapM_cons]
      constructor
      · intro h
        obtain ⟨graph₁, hstep, hrest⟩ := bind_eq_ok_iff.mp h
        obtain ⟨job, hjob, hadd⟩ := bind_eq_ok_iff.mp hstep
        obtain ⟨jobs, hjobs, hall⟩ := ih.mp hrest
        rw [mapError_eq_ok_iff] at hjob hadd
        refine ⟨job :: jobs, ?_, ?_⟩
        · rw [hjob, ok_bind, hjobs, ok_bind]
          rfl
        · rw [JobGraph.addAll_cons, hadd, ok_bind, hall]
      · rintro ⟨jobs, hmap, hall⟩
        obtain ⟨job, hjob, hmap⟩ := bind_eq_ok_iff.mp hmap
        obtain ⟨jobs, hjobs, hmap⟩ := bind_eq_ok_iff.mp hmap
        obtain rfl := Except.ok.inj hmap
        rw [JobGraph.addAll_cons] at hall
        obtain ⟨graph₁, hadd, hall⟩ := bind_eq_ok_iff.mp hall
        refine bind_eq_ok_iff.mpr ⟨graph₁, ?_, ih.mpr ⟨jobs, hjobs, hall⟩⟩
        rw [mapError_eq_ok_iff.mpr hjob, ok_bind, mapError_eq_ok_iff.mpr hadd]

/-- **Assembly.** The graph has the control jobs, the author's own jobs and the safe outputs
job, in this order. -/
theorem assemble_eq_ok_iff :
    assemble ctx g = .ok graph ↔
      ∃ jobs, g.customJobs.mapM (·.toJob ctx.runner g.activation.job.isSome) = .ok jobs ∧
        JobGraph.empty.addAll (g.control ++ jobs ++ g.safeOutputs.toList) = .ok graph := by
  simp only [assemble, bind_eq_ok_iff, mapError_eq_ok_iff, foldlM_custom_eq_ok_iff,
    JobGraph.addAll_append]
  constructor
  · rintro ⟨graph₁, hcontrol, graph₂, ⟨jobs, hjobs, hcustom⟩, hsafe⟩
    exact ⟨jobs, hjobs, graph₂, ⟨graph₁, hcontrol, hcustom⟩, hsafe⟩
  · rintro ⟨jobs, hjobs, graph₂, ⟨graph₁, hcontrol, hcustom⟩, hsafe⟩
    exact ⟨graph₁, hcontrol, graph₂, ⟨jobs, hjobs, hcustom⟩, hsafe⟩

/-- **Where a job comes from**: it is one of the four that are generated, or made from one of
the author's own. -/
inductive Generated.Origin (g : Generated) (ctx : Context) : Job → Prop
  | preActivation {pre : PreActivation} : g.preActivation = some pre → Origin g ctx pre.job
  | activation {job : Job} : g.activation.job = some job → Origin g ctx job
  | agent : Origin g ctx g.agent
  | custom {custom : CustomJob} {job : Job} : custom ∈ g.customJobs →
      custom.toJob ctx.runner g.activation.job.isSome = .ok job → Origin g ctx job
  | safeOutputs {job : Job} : g.safeOutputs = some job → Origin g ctx job

namespace Generates

/-- Nothing else takes the name of one of the first two control jobs. -/
theorem name_cases (hg : c.Generates ctx g) (h : g.Origin ctx job) :
    (job.name = Names.preActivationJob ∧ ∃ pre, g.preActivation = some pre ∧ pre.job = job) ∨
      (job.name = Names.activationJob ∧ g.activation.job = some job) ∨
        job.name ∉ [Names.preActivationJob, Names.activationJob] := by
  cases h with
  | preActivation hpre => exact .inl ⟨(hg.preActivation_place hpre).1, _, hpre, rfl⟩
  | activation hjob => exact .inr (.inl ⟨(hg.activation_place hjob).1, hjob⟩)
  | agent => exact .inr (.inr (hg.agent_place.1 ▸ by decide))
  | custom hcustom hjob =>
      have hsub : [Names.preActivationJob, Names.activationJob] ⊆ Names.reservedJobs := by
        decide
      exact .inr (.inr fun hmem => (hg.custom_place hcustom hjob).1 (hsub hmem))
  | safeOutputs hjob => exact .inr (.inr ((hg.safeOutputs_place hjob).1 ▸ by decide))

/-- The job under the name of the pre-activation job is this job. -/
theorem origin_preActivation_iff (hg : c.Generates ctx g) :
    g.preActivation.map (·.job) = some job ↔
      g.Origin ctx job ∧ job.name = Names.preActivationJob := by
  rw [Option.map_eq_some_iff]
  constructor
  · rintro ⟨pre, hpre, rfl⟩
    exact ⟨.preActivation hpre, (hg.preActivation_place hpre).1⟩
  · rintro ⟨h, hname⟩
    rcases hg.name_cases h with ⟨-, hpre⟩ | ⟨hname', -⟩ | hother
    · exact hpre
    · exact absurd (hname.symm.trans hname') (by decide)
    · exact absurd (by simp [hname]) hother

/-- The job under the name of the activation job is this job. -/
theorem origin_activation_iff (hg : c.Generates ctx g) :
    g.activation.job = some job ↔ g.Origin ctx job ∧ job.name = Names.activationJob := by
  constructor
  · intro hjob
    exact ⟨.activation hjob, (hg.activation_place hjob).1⟩
  · rintro ⟨h, hname⟩
    rcases hg.name_cases h with ⟨hname', -⟩ | ⟨-, hjob⟩ | hother
    · exact absurd (hname.symm.trans hname') (by decide)
    · exact hjob
    · exact absurd (by simp [hname]) hother

end Generates

/-- **The edges of a pipeline** by the reason why one job needs another one. -/
inductive Generated.Edge (g : Generated) : String → String → Prop
  | gate : g.preActivation.isSome = true → Edge g Names.activationJob Names.preActivationJob
  | gated {custom : CustomJob} : g.preActivation.isSome = true → custom ∈ g.customJobs →
      Names.preActivationJob ∈ custom.needs → Edge g Names.activationJob custom.name
  | declared {custom : CustomJob} {need : String} : custom ∈ g.customJobs →
      need ∈ custom.needs → Edge g custom.name need
  | free {custom : CustomJob} : g.activation.job.isSome = true → custom ∈ g.customJobs →
      custom.needs = [] → Edge g custom.name Names.activationJob
  | agent : g.activation.job.isSome = true → Edge g Names.agentJob Names.activationJob
  | agentPre : g.preActivation.isSome = true → Edge g Names.agentJob Names.preActivationJob
  | agentCustom {custom : CustomJob} : custom ∈ g.customJobs → Edge g Names.agentJob custom.name
  | outputs : Edge g Names.safeOutputsJob Names.agentJob
  | outputsActivation : g.activation.job.isSome = true →
      Edge g Names.safeOutputsJob Names.activationJob

/-- Each need has one of the reasons. -/
theorem Generates.edge_of_origin (hg : c.Generates ctx g) (h : g.Origin ctx job) {need : String}
    (hneed : need ∈ job.needs) : g.Edge job.name need := by
  -- one case for each job; its place says what it needs
  cases h with
  | preActivation hpre =>
      rw [(hg.preActivation_place hpre).2] at hneed
      cases hneed
  | activation hjob =>
      obtain ⟨hname, hneeds⟩ := hg.activation_place hjob
      rw [hneeds] at hneed
      rw [hname]
      obtain ⟨hsome, rfl | ⟨custom, hcustom, hgated, rfl⟩⟩ := Activation.mem_needs.mp hneed
      · exact .gate hsome
      · exact .gated hsome hcustom hgated
  | agent =>
      obtain ⟨hname, hneeds⟩ := hg.agent_place
      rw [hneeds, Agent.mem_needs] at hneed
      rw [hname]
      rcases hneed with ⟨hsome, rfl⟩ | hreferenced
      · exact .agent hsome
      · rcases Agent.of_mem_referencedJobs hreferenced with ⟨custom, hcustom, rfl⟩ | ⟨hsome, rfl⟩
        · exact .agentCustom hcustom
        · exact .agentPre hsome
  | custom hcustom hjob =>
      obtain ⟨hname, hneeds⟩ := CustomJob.place_of_toJob hjob
      rw [hneeds, CustomJob.effectiveNeeds] at hneed
      rw [hname]
      split at hneed
      · next hfree =>
        rw [Bool.and_eq_true, List.isEmpty_iff] at hfree
        rw [List.mem_singleton.mp hneed]
        exact .free hfree.2 hcustom hfree.1
      · exact .declared hcustom hneed
  | safeOutputs hjob =>
      obtain ⟨hname, hneeds⟩ := hg.safeOutputs_place hjob
      rw [hneeds, List.mem_cons] at hneed
      rw [hname]
      rcases hneed with rfl | hneed
      · exact .outputs
      · split at hneed
        · next hsome =>
          rw [List.mem_singleton.mp hneed]
          exact .outputsActivation hsome
        · cases hneed

/-- The control jobs in front of the outputs are the first three. -/
theorem Generated.mem_control :
    job ∈ g.control ↔
      (∃ pre, g.preActivation = some pre ∧ pre.job = job) ∨
        g.activation.job = some job ∨ job = g.agent := by
  simp [control]

/-- The jobs of the graph are those that come from somewhere. -/
theorem mem_members_of_assemble (h : assemble ctx g = .ok graph) :
    job ∈ graph.members ↔ g.Origin ctx job := by
  obtain ⟨jobs, hjobs, hadd⟩ := assemble_eq_ok_iff.mp h
  have hempty : job ∉ JobGraph.empty.members := List.not_mem_nil
  rw [JobGraph.mem_members_addAll hadd, or_iff_right hempty, List.mem_append,
    List.mem_append, mem_of_mapM hjobs, Option.mem_toList, Generated.mem_control]
  constructor
  · rintro (((⟨pre, hpre, rfl⟩ | hactivation | rfl) | ⟨custom, hcustom, hjob⟩) | hsafe)
    · exact .preActivation hpre
    · exact .activation hactivation
    · exact .agent
    · exact .custom hcustom hjob
    · exact .safeOutputs hsafe
  · intro h
    cases h with
    | preActivation hpre => exact .inl (.inl (.inl ⟨_, hpre, rfl⟩))
    | activation hactivation => exact .inl (.inl (.inr (.inl hactivation)))
    | agent => exact .inl (.inl (.inr (.inr rfl)))
    | custom hcustom hjob => exact .inl (.inr ⟨_, hcustom, hjob⟩)
    | safeOutputs hsafe => exact .inr hsafe

/-- A job is in the graph exactly if it is generated. -/
theorem has_eq_isSome (hgraph : assemble ctx g = .ok graph) {name : String} {o : Option Job}
    (h : ∀ job, o = some job ↔ g.Origin ctx job ∧ job.name = name) :
    graph.has name = o.isSome := by
  rw [Bool.eq_iff_iff, JobGraph.has_iff_mem_names, JobGraph.mem_names,
    Option.isSome_iff_exists]
  exact exists_congr fun job => by rw [mem_members_of_assemble hgraph, h]

/-- **The stages of a compilation**: generate, assemble and validate. -/
theorem compileFrom_eq_ok_iff {p : Pipeline} :
    c.compileFrom w sourceStem = .ok p ↔
      ∃ g, c.Generates (c.context w sourceStem) g ∧
        assemble (c.context w sourceStem) g = .ok p.jobs ∧ p.jobs.validate = .ok () ∧
        p = ⟨w.name, w.triggers, w.concurrency, p.jobs⟩ := by
  constructor
  · intro h
    obtain ⟨g, hg, h⟩ := bind_eq_ok_iff.mp h
    obtain ⟨graph, hgraph, h⟩ := bind_eq_ok_iff.mp h
    obtain ⟨⟨⟩, hvalid, h⟩ := bind_eq_ok_iff.mp h
    obtain rfl := Except.ok.inj h
    exact ⟨g, generate_eq_ok_iff.mp hg, hgraph, mapError_eq_ok_iff.mp hvalid, rfl⟩
  · rintro ⟨g, hg, hgraph, hvalid, hp⟩
    rw [compileFrom, generate_eq_ok_iff.mpr hg, ok_bind, hgraph, ok_bind, hvalid, hp]
    rfl

/-- The graph of a pipeline is valid. -/
theorem validate_of_compileFrom {p : Pipeline} (h : c.compileFrom w sourceStem = .ok p) :
    p.jobs.validate = .ok () := by
  obtain ⟨g, -, -, hvalid, -⟩ := compileFrom_eq_ok_iff.mp h
  exact hvalid

end AgentPipeline.Compiler
