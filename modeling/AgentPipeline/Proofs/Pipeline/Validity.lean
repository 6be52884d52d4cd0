import AgentPipeline.Proofs.Pipeline.Assembly
import AgentPipeline.Proofs.Condition.Reference

/-!
# Valid graphs of generated jobs

The graph of a pipeline has to be valid: all needed jobs exist, no job comes after itself, and
each job needs the jobs that its expressions refer to. The generated jobs fit together by
themselves. Their names differ, and each needs only some of those in front of it in a fixed
**chain**. Without jobs of the author, nothing but an expression that refers to a job in vain can
make their graph invalid (`exists_compileFrom`).

The small workflow at the end is compiled without such expressions (`exists_compileFrom_locking`).
-/

namespace AgentPipeline

/-- A job has no expressions if it has no condition, and its steps have neither conditions
nor templates. -/
theorem Job.expressions_eq_nil {job : Job} (hcondition : job.condition = none)
    (hsteps : ∀ step ∈ job.steps,
      step.condition = none ∧ Reference.templates step.render = [])
    (houtputs : job.outputs = .empty) (henv : job.env = .empty)
    (hconcurrency : job.concurrency = none) : job.expressions = [] := by
  have hconditions : job.stepConditions = [] :=
    List.filterMap_eq_nil_iff.mpr fun step hstep => (hsteps step hstep).1
  have htexts : job.stepTexts.flatMap Reference.templates = [] := by
    rw [Job.stepTexts, List.flatMap_map]
    exact List.flatMap_eq_nil_iff.mpr fun step hstep => (hsteps step hstep).2
  simp [expressions, templated, hcondition, hconditions, htexts, houtputs, henv, hconcurrency,
    Dictionary.values, Dictionary.empty]

namespace Compiler

variable {c : Compiler} {w : Workflow} {sourceStem : Option String} {ctx : Context}
  {g : Generated} {graph : JobGraph} {job : Job}

/-! ### The generated jobs fit together -/

/-- The names of the generated jobs, each in front of those that may need it. -/
def chain : List String :=
  [Names.preActivationJob, Names.activationJob, Names.agentJob, Names.safeOutputsJob]

theorem Generates.names_sublist (hg : c.Generates ctx g) :
    ((g.control ++ g.safeOutputs.toList).map (·.name)).Sublist chain := by
  have hpre : ((g.preActivation.map (·.job)).toList.map (·.name)).Sublist
      [Names.preActivationJob] := by
    cases h : g.preActivation with
    | none => simp
    | some pre => simp [(hg.preActivation_place h).1]
  have hactivation : (g.activation.job.toList.map (·.name)).Sublist [Names.activationJob] := by
    cases h : g.activation.job with
    | none => simp
    | some job => simp [(hg.activation_place h).1]
  have hsafe : (g.safeOutputs.toList.map (·.name)).Sublist [Names.safeOutputsJob] := by
    cases h : g.safeOutputs with
    | none => simp
    | some job => simp [(hg.safeOutputs_place h).1]
  have hagent : ([g.agent].map (·.name)).Sublist [Names.agentJob] := by
    simp [hg.agent_place.1]
  rw [Generated.control, List.map_append, List.map_append, List.map_append]
  exact ((hpre.append hactivation).append hagent).append hsafe

/-- Without jobs of the author, the graph has the generated jobs. -/
theorem Generates.exists_assemble (hg : c.Generates ctx g) (hcustom : g.customJobs = []) :
    ∃ graph, assemble ctx g = .ok graph := by
  have hnodup := hg.names_sublist.nodup (by decide)
  obtain ⟨graph, hadd⟩ := JobGraph.exists_addAll (g := .empty) hnodup fun _ _ hmem =>
    absurd hmem List.not_mem_nil
  refine ⟨graph, assemble_eq_ok_iff.mpr ⟨[], by rw [hcustom]; rfl, ?_⟩⟩
  rw [List.append_nil, hadd]

/-- Without jobs of the author, each job only needs generated ones in front of it. -/
theorem Generates.origin_of_needs (hg : c.Generates ctx g) (hcustom : g.customJobs = [])
    (h : g.Origin ctx job) {need : String} (hneed : need ∈ job.needs) :
    (∃ job', g.Origin ctx job' ∧ job'.name = need) ∧
      chain.idxOf need < chain.idxOf job.name := by
  have hpreActivation : g.preActivation.isSome = true →
      ∃ job', g.Origin ctx job' ∧ job'.name = Names.preActivationJob := fun hsome => by
    obtain ⟨job', hjob'⟩ := Option.isSome_iff_exists.mp (Option.isSome_map.trans hsome)
    exact ⟨job', hg.origin_preActivation_iff.mp hjob'⟩
  have hactivation : g.activation.job.isSome = true →
      ∃ job', g.Origin ctx job' ∧ job'.name = Names.activationJob := fun hsome => by
    obtain ⟨job', hjob'⟩ := Option.isSome_iff_exists.mp hsome
    exact ⟨job', hg.origin_activation_iff.mp hjob'⟩
  have hedge := hg.edge_of_origin h hneed
  generalize job.name = name at hedge ⊢
  cases hedge with
  | gate hsome | agentPre hsome => exact ⟨hpreActivation hsome, by decide⟩
  | agent hsome | outputsActivation hsome => exact ⟨hactivation hsome, by decide⟩
  | outputs => exact ⟨⟨g.agent, .agent, hg.agent_place.1⟩, by decide⟩
  -- there is no job of the author
  | gated _ hmem | declared hmem | free _ hmem | agentCustom hmem =>
      rw [hcustom] at hmem
      cases hmem

/-- **The generated jobs fit together.** Without jobs of the author, a compilation succeeds
if the jobs are generated and each of them needs the jobs that its expressions refer to. -/
theorem exists_compileFrom (hg : c.Generates (c.context w sourceStem) g)
    (hcustom : g.customJobs = [])
    (hcovered : ∀ job, g.Origin (c.context w sourceStem) job → job.Covered) :
    ∃ p, c.compileFrom w sourceStem = .ok p ∧
      ∀ job, job ∈ p.jobs.members ↔ g.Origin (c.context w sourceStem) job := by
  obtain ⟨graph, hgraph⟩ := hg.exists_assemble hcustom
  have horigin : ∀ job, job ∈ graph.members ↔ g.Origin (c.context w sourceStem) job :=
    fun job => mem_members_of_assemble hgraph
  -- needs lead to jobs of the graph, and towards the front of the chain
  have hneeds : ∀ name need, graph.Needs name need →
      need ∈ graph.names ∧ chain.idxOf need < chain.idxOf name := by
    intro name need hneeds
    obtain ⟨job, hjob, rfl, hneed⟩ := JobGraph.needs_iff.mp hneeds
    obtain ⟨⟨job', hjob', hname⟩, hlt⟩ :=
      hg.origin_of_needs hcustom ((horigin job).mp hjob) hneed
    exact ⟨JobGraph.mem_names.mpr ⟨job', (horigin job').mpr hjob', hname⟩, hlt⟩
  have hvalid : graph.validate = .ok () :=
    JobGraph.validate_eq_ok_iff.mpr ⟨fun name need h => (hneeds name need h).1,
      JobGraph.acyclic_of_rank chain.idxOf fun name need h => (hneeds name need h).2,
      fun job hjob => hcovered job ((horigin job).mp hjob)⟩
  exact ⟨⟨w.name, w.triggers, w.concurrency, graph⟩,
    compileFrom_eq_ok_iff.mpr ⟨g, hg, hgraph, hvalid, rfl⟩, horigin⟩

/-! ### A small pipeline -/

/-- A compiler that knows a commit for every action, and an engine without steps. -/
def pinning (strict : Bool) : Compiler where
  options := { strict, referenceTime := 0 }
  lookup := fun _ _ => some "11bd719"
  engine := some fun _ => []

/-- A compiler that knows a commit for every action, and lets the workflows run their
agents. -/
def running : Compiler := { pinning false with engine := none }

/-- A workflow with an activation job. -/
def locking (permissions : Option Permissions) : Workflow :=
  { Workflow.named "triage" with
    triggers := .ofList [("schedule", .null)], permissions, lockForAgent := true }

/-- The steps of the small pipeline lack a dollar sign or a brace. -/
theorem templates_locking :
    let ctx := (pinning true).context (locking none) (some "triage")
    let timestamp := Activation.timestampStep ctx "actions/github-script@11bd719 # v8"
    let checkout := Agent.checkoutStep "actions/checkout@11bd719 # v5.0.0"
    Reference.templates timestamp.render = [] ∧ Reference.templates checkout.render = [] ∧
      Reference.templates (Agent.promptStep "").render = [] := by
  intro ctx timestamp checkout
  have hdollar :
      ¬String.utf8EncodeChar '$' ⊆ timestamp.render.toByteArray.data.toList := by
    decide +kernel
  have hbrace : ∀ step ∈ [checkout, Agent.promptStep ""],
      ¬String.utf8EncodeChar '\x7b' ⊆ step.render.toByteArray.data.toList := by
    decide +kernel
  have htemplates : ∀ step ∈ [checkout, Agent.promptStep ""],
      Reference.templates step.render = [] := fun step hstep =>
    Reference.templates_eq_nil (.inr (mt Reference.utf8EncodeChar_subset (hbrace step hstep)))
  exact ⟨Reference.templates_eq_nil (.inl (mt Reference.utf8EncodeChar_subset hdollar)),
    htemplates _ (by simp), htemplates _ (by simp)⟩

/-- The small pipeline is compiled, unless strict mode minds the permissions. -/
theorem exists_compileFrom_locking (strict : Bool) (permissions : Option Permissions)
    (h : strict = false ∨ permissions = none) :
    ∃ p, (pinning strict).compileFrom (locking permissions) (some "triage") = .ok p ∧
      p.jobs.has Names.activationJob = true := by
  let ctx := (pinning strict).context (locking permissions) (some "triage")
  let activation := Activation.activationJob ctx [] [] "actions/github-script@11bd719 # v8"
  let agent : Job :=
    { name := Names.agentJob
      runsOn := Names.defaultRunner
      needs := [Names.activationJob]
      permissions := some (permissions.getD (.shorthand .readAll))
      steps := Agent.mainSteps ctx.workflow "actions/checkout@11bd719 # v5.0.0" [] }
  -- the engine and the prompt are given, so both jobs are known
  have hg : (pinning strict).Generates ctx ⟨[], none, ⟨some activation, none⟩, agent, none⟩ := by
    refine ⟨rfl, rfl, rfl, ?_, rfl⟩
    rcases h with rfl | rfl
    · rfl
    · cases strict <;> rfl
  obtain ⟨htimestamp, hcheckout, hprompt⟩ := templates_locking
  have hactivation : activation.expressions = [] := by
    refine Job.expressions_eq_nil rfl (fun step hstep => ?_) rfl rfl rfl
    obtain rfl := List.mem_singleton.mp hstep
    exact ⟨rfl, htimestamp⟩
  have hagent : agent.expressions = [] := by
    refine Job.expressions_eq_nil rfl (fun step hstep => ?_) rfl rfl rfl
    rcases List.mem_pair.mp hstep with rfl | rfl
    · exact ⟨rfl, hcheckout⟩
    · exact ⟨rfl, hprompt⟩
  -- neither of the jobs refers to anything, so the references are covered
  obtain ⟨p, hp, hmem⟩ := exists_compileFrom hg rfl fun job horigin => by
    cases horigin with
    | preActivation h => cases h
    | activation h =>
        cases h
        exact Job.covered_of_expressions hactivation
    | agent => exact Job.covered_of_expressions hagent
    | custom h _ => cases h
    | safeOutputs h => cases h
  refine ⟨p, hp, JobGraph.has_iff_mem_names.mpr (JobGraph.mem_names.mpr ?_)⟩
  exact ⟨activation, (hmem _).mpr (.activation rfl), rfl⟩

end Compiler

end AgentPipeline
