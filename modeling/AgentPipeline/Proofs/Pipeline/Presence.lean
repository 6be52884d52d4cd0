import AgentPipeline.Proofs.Pipeline.Failure
import AgentPipeline.Proofs.Pipeline.Validity

/-!
# Which jobs a pipeline has

Each generated job is there for a reason that can be read off the workflow: something is to
be checked before a run (`Workflow.HasChecks`), something is to be decided or done in front of
the agent (`Workflow.HasGate`), or the agent may ask for an output (`Workflow.HasOutputs`). The
stages of a compilation decide this one after the other, and hand the decisions on as flags.

The flags agree with the reasons, and so the workflow tells which jobs its pipeline has and
which of the generated ones need each other (`JobGraph.IsPlanOf`). All jobs have names of their
own: no compilation ends because a name is taken (`jobs_of_compileFrom`).
-/

namespace AgentPipeline

/-! ### Reasons for the generated jobs -/

namespace Workflow

/-- **There is something to check**: the roles, if they are restricted and somebody in
particular causes one of the events, the deadline, or one of the two queries. -/
def HasChecks (w : Workflow) : Prop :=
  (w.roles ≠ .all ∧ ∃ event, w.hasTrigger event = true ∧ event ∉ ["schedule", "merge_group"]) ∨
    w.stopTime.isSome = true ∨ w.skipIfMatch.isSome = true ∨ w.skipIfNoMatch.isSome = true

/-- **There is something to decide or to do in front of the agent.** -/
def HasGate (w : Workflow) : Prop :=
  w.HasChecks ∨ w.condition.isSome = true ∨ w.reaction.isSome = true ∨
    w.lockForAgent = true ∨ w.hasTrigger "workflow_run" = true

/-- **The agent may ask for an output.** -/
def HasOutputs (w : Workflow) : Prop :=
  ∃ s kind, w.safeOutputs = some s ∧ s.has kind = true

variable {w : Workflow}

/-- Roles are checked if they are restricted and an event is not safe. -/
theorem needsRoleCheck_iff :
    w.needsRoleCheck = true ↔
      w.roles ≠ .all ∧ ∃ event, w.hasTrigger event = true ∧ event ∉ Names.safeEvents := by
  refine ⟨fun h => ?_, fun ⟨hroles, event, htrigger, hsafe⟩ =>
    needsRoleCheck_of_hasTrigger hroles htrigger hsafe⟩
  rw [needsRoleCheck, Bool.and_eq_true, List.any_eq_true] at h
  obtain ⟨hrestricted, event, hkey, hsafe⟩ := h
  refine ⟨fun hroles => ?_, event, Dictionary.contains_iff_mem_keys.mpr hkey, by simpa using hsafe⟩
  rw [hroles] at hrestricted
  cases hrestricted

/-- The list of the checks is empty exactly if there is nothing to check. -/
theorem checks_ne_nil_iff {deadline : Option String}
    (hdeadline : deadline.isSome = w.stopTime.isSome) : w.checks deadline ≠ [] ↔ w.HasChecks := by
  have hroles : (if w.needsRoleCheck then [Check.membership w.roles] else []) = [] ↔
      w.needsRoleCheck = false := by simp
  have hgate : w.gateChecks deadline = [] ↔
      deadline = none ∧ w.skipIfMatch = none ∧ w.skipIfNoMatch = none := by
    simp [gateChecks]
  rw [Ne, checks, List.append_eq_nil_iff, hroles, hgate, HasChecks, ← hdeadline,
    ← Names.safeEvents, ← needsRoleCheck_iff]
  cases w.needsRoleCheck <;> cases deadline <;> cases w.skipIfMatch <;> simp
  exact Option.ne_none_iff_isSome

/-- There are settings of outputs if and only if the agent may ask for one. -/
theorem isSome_outputs_iff : w.outputs.isSome = true ↔ w.HasOutputs := by
  have hempty : ∀ s : SafeOutputs, s.isEmpty = false ↔ ∃ kind, s.has kind = true := fun s => by
    rw [SafeOutputs.isEmpty, List.isEmpty_eq_false_iff_exists_mem]
    exact exists_congr fun kind => by simp [SafeOutputs.kinds, OutputKind.mem_all]
  rw [HasOutputs, outputs]
  cases w.safeOutputs with
  | none => simp
  | some s => cases h : s.isEmpty <;> simp [Option.filter, h, ← hempty]

/-- The author's own jobs have the names under which they are defined. -/
theorem map_name_customJobs {customJobs : List CustomJob} (h : w.customJobs = .ok customJobs) :
    customJobs.map (·.name) = w.jobs.keys :=
  map_eq_of_mapM (fun _ _ hparse => (CustomJob.parse_eq_ok hparse).1) h

end Workflow

/-- There is a pre-activation job exactly if there is something to check. -/
theorem PreActivation.isSome_of_build {ctx : Context} {pre : Option PreActivation}
    (h : build ctx = .ok pre) : pre.isSome = true ↔ ctx.workflow.HasChecks := by
  obtain ⟨deadline, hdeadline, ⟨hnil, rfl⟩ | ⟨hne, scriptAction, rfl⟩⟩ := build_eq_ok h
  · exact iff_of_false nofun fun hchecks => (Workflow.checks_ne_nil_iff hdeadline).mpr hchecks hnil
  · exact iff_of_true rfl ((Workflow.checks_ne_nil_iff hdeadline).mp hne)

/-- The activation job is built if it is needed. -/
theorem Activation.isSome_of_build {ctx : Context} {pre : Option PreActivation}
    {customJobs : List CustomJob} {a : Activation} (h : build ctx pre customJobs = .ok a) :
    a.job.isSome = isNeeded ctx.workflow pre.isSome := by
  rw [build_eq] at h
  obtain ⟨user, -, h⟩ := bind_eq_ok_iff.mp h
  cases hneeded : isNeeded ctx.workflow pre.isSome with
  | false =>
      rw [hneeded] at h
      exact Except.ok.inj h ▸ rfl
  | true =>
      rw [hneeded] at h
      obtain ⟨scriptAction, -, h⟩ := bind_eq_ok_iff.mp h
      exact Except.ok.inj h ▸ rfl

/-- There is a safe outputs job exactly if some kind is configured. -/
theorem Dispatch.isSome_of_build {ctx : Context} {hasActivation : Bool} {job : Option Job}
    (h : build ctx hasActivation = .ok job) : job.isSome = ctx.workflow.outputs.isSome := by
  unfold build at h
  split at h
  · next s hs =>
    obtain ⟨job, -, rfl⟩ := map_eq_ok_iff.mp h
    rw [hs]
    rfl
  · next hnone =>
    obtain rfl := Except.ok.inj h
    exact hnone ▸ rfl

namespace Compiler

open CompileError (OffGraph)

variable {c : Compiler} {w : Workflow} {sourceStem : Option String} {ctx : Context}
  {g : Generated} {graph : JobGraph} {name : String}

/-! ### The generated jobs -/

namespace Generates

/-- The pre-activation job is generated if there is something to check. -/
theorem isSome_preActivation_iff (hg : c.Generates ctx g) :
    g.preActivation.isSome = true ↔ ctx.workflow.HasChecks :=
  PreActivation.isSome_of_build hg.preActivation

/-- The activation job is generated if there is something to decide or to do. -/
theorem isSome_activation_iff (hg : c.Generates ctx g) :
    g.activation.job.isSome = true ↔ ctx.workflow.HasGate := by
  rw [Activation.isSome_of_build hg.activation, Activation.isNeeded, Workflow.HasGate,
    ← hg.isSome_preActivation_iff]
  simp only [Bool.or_eq_true, or_assoc]

/-- The safe outputs job is generated if the agent may ask for an output. -/
theorem isSome_safeOutputs_iff (hg : c.Generates ctx g) :
    g.safeOutputs.isSome = true ↔ ctx.workflow.HasOutputs := by
  rw [Dispatch.isSome_of_build hg.safeOutputs, Workflow.isSome_outputs_iff]

/-- Behind the pre-activation job comes the activation job. -/
theorem activation_isSome (hg : c.Generates ctx g) (hpre : g.preActivation.isSome = true) :
    g.activation.job.isSome = true :=
  hg.isSome_activation_iff.mpr (.inl (hg.isSome_preActivation_iff.mp hpre))

/-- The author's jobs leave the names of the generated ones alone. -/
theorem name_notMem (hg : c.Generates ctx g) {custom : CustomJob}
    (hcustom : custom ∈ g.customJobs) : custom.name ∉ Names.reservedJobs := by
  obtain ⟨e, -, hparse⟩ := (mem_of_mapM hg.customJobs).mp hcustom
  obtain ⟨hname, hfree⟩ := CustomJob.parse_eq_ok hparse
  rwa [hname]

/-- Each of the author's jobs has become a job of the graph. -/
theorem exists_custom (hgraph : assemble ctx g = .ok graph) {custom : CustomJob}
    (hcustom : custom ∈ g.customJobs) :
    ∃ job ∈ graph.members, job.name = custom.name ∧
      job.needs = custom.effectiveNeeds g.activation.job.isSome := by
  obtain ⟨jobs, hjobs, -⟩ := assemble_eq_ok_iff.mp hgraph
  obtain ⟨job, hjob⟩ := exists_of_mapM hjobs hcustom
  have horigin : g.Origin ctx job := .custom hcustom hjob
  exact ⟨job, (mem_members_of_assemble hgraph).mpr horigin, CustomJob.place_of_toJob hjob⟩

/-- Nothing else takes the name of the safe outputs job. -/
theorem exists_safeOutputs_iff (hg : c.Generates ctx g) :
    (∃ job, g.Origin ctx job ∧ job.name = Names.safeOutputsJob) ↔
      g.safeOutputs.isSome = true := by
  constructor
  · rintro ⟨job, horigin, hname⟩
    cases horigin with
    | preActivation hpre =>
        exact absurd ((hg.preActivation_place hpre).1.symm.trans hname) (by decide)
    | activation hjob =>
        exact absurd ((hg.activation_place hjob).1.symm.trans hname) (by decide)
    | agent => exact absurd (hg.agent_place.1.symm.trans hname) (by decide)
    | custom hcustom hjob => exact absurd (hname ▸ by decide) (hg.custom_place hcustom hjob).1
    | safeOutputs hjob => exact Option.isSome_iff_exists.mpr ⟨job, hjob⟩
  · intro hsome
    obtain ⟨job, hjob⟩ := Option.isSome_iff_exists.mp hsome
    exact ⟨job, .safeOutputs hjob, (hg.safeOutputs_place hjob).1⟩

end Generates

/-! ### Names -/

/-- The author's jobs keep their names. -/
theorem map_name_mapM {customJobs : List CustomJob} {runner : String} {activationExists : Bool}
    {jobs : List Job} (h : customJobs.mapM (·.toJob runner activationExists) = .ok jobs) :
    jobs.map (·.name) = customJobs.map (·.name) :=
  map_eq_of_mapM (fun _ _ hjob => (CustomJob.place_of_toJob hjob).1) h

/-- The names of the graph are those of the generated jobs and of the author's own. -/
theorem mem_names_of_assemble (h : assemble ctx g = .ok graph) :
    name ∈ graph.names ↔
      name ∈ (g.control ++ g.safeOutputs.toList).map (·.name) ∨
        name ∈ g.customJobs.map (·.name) := by
  obtain ⟨jobs, hjobs, hadd⟩ := assemble_eq_ok_iff.mp h
  have hempty : name ∉ JobGraph.empty.names := List.not_mem_nil
  rw [JobGraph.mem_names_addAll hadd, or_iff_right hempty, List.map_append, List.map_append,
    map_name_mapM hjobs, List.map_append]
  simp only [List.mem_append]
  exact or_right_comm

/-- The author's own jobs with new names that differ can be added, unless one of them makes no
sense. -/
theorem foldlM_custom_failsWith {customJobs : List CustomJob} {runner : String}
    {activationExists : Bool} {graph₀ : JobGraph}
    (hnodup : (customJobs.map (·.name)).Nodup)
    (hnew : ∀ custom ∈ customJobs, custom.name ∉ graph₀.names) :
    FailsWith OffGraph (customJobs.foldlM (fun graph custom => do
      let job ← (custom.toJob runner activationExists).mapError CompileError.config
      (graph.add job).mapError CompileError.graph) graph₀) := by
  induction customJobs generalizing graph₀ with
  | nil => exact .ok _
  | cons custom rest ih =>
      rw [List.map_cons, List.nodup_cons] at hnodup
      rw [List.forall_mem_cons] at hnew
      rw [List.foldlM_cons]
      refine .bind_of_ok (.bind_of_ok (config_failsWith _) fun job hjob => ?_)
        fun graph₁ hstep => ih hnodup.2 fun other hother hmem => ?_
      · obtain ⟨hname, -⟩ := CustomJob.place_of_toJob (mapError_eq_ok_iff.mp hjob)
        obtain ⟨graph₁, hadd⟩ := JobGraph.exists_add (hname ▸ hnew.1)
        rw [hadd]
        exact .ok _
      · obtain ⟨job, hjob, hadd⟩ := bind_eq_ok_iff.mp hstep
        obtain ⟨hname, -⟩ := CustomJob.place_of_toJob (mapError_eq_ok_iff.mp hjob)
        obtain ⟨j, hj, hjname⟩ := JobGraph.mem_names.mp hmem
        rcases (JobGraph.mem_members_add (mapError_eq_ok_iff.mp hadd)).mp hj with hold | rfl
        · exact hnew.2 other hother (JobGraph.mem_names.mpr ⟨j, hold, hjname⟩)
        · exact hnodup.1 (List.mem_map.mpr ⟨other, hother, hjname.symm.trans hname⟩)

/-- **No name is taken twice** when the generated jobs and the author's own are put together. -/
theorem Generates.assemble_failsWith (hg : c.Generates ctx g) :
    FailsWith OffGraph (assemble ctx g) := by
  have hnodup : ((g.control ++ g.safeOutputs.toList).map (·.name)).Nodup :=
    hg.names_sublist.nodup (by decide)
  rw [List.map_append, List.nodup_append] at hnodup
  obtain ⟨hcontrolNodup, hsafeNodup, hdisjoint⟩ := hnodup
  have hcustomNodup : (g.customJobs.map (·.name)).Nodup := by
    rw [Workflow.map_name_customJobs hg.customJobs]
    exact Dictionary.nodup_keys _
  have hreserved : ∀ name ∈ (g.control ++ g.safeOutputs.toList).map (·.name),
      name ∈ Names.reservedJobs := fun name hname => hg.names_sublist.subset hname
  have hempty : ∀ name, name ∉ JobGraph.empty.names := fun _ => List.not_mem_nil
  obtain ⟨graph₁, hcontrol⟩ :=
    JobGraph.exists_addAll (g := .empty) hcontrolNodup fun job _ => hempty job.name
  have hnames : ∀ name, name ∈ graph₁.names ↔ name ∈ g.control.map (·.name) := fun name => by
    rw [JobGraph.mem_names_addAll hcontrol, or_iff_right (hempty name)]
  rw [assemble, mapError_eq_ok_iff.mpr hcontrol, ok_bind]
  refine .bind_of_ok (foldlM_custom_failsWith hcustomNodup fun custom hcustom hmem => ?_)
    fun graph₂ hgraph₂ => ?_
  · refine hg.name_notMem hcustom (hreserved _ ?_)
    rw [List.map_append]
    exact List.mem_append_left _ ((hnames _).mp hmem)
  · obtain ⟨jobs, hjobs, hadd⟩ := foldlM_custom_eq_ok_iff.mp hgraph₂
    obtain ⟨graph₃, hsafe⟩ := JobGraph.exists_addAll hsafeNodup fun job hjob hmem => by
      rw [JobGraph.mem_names_addAll hadd, hnames, map_name_mapM hjobs] at hmem
      rcases hmem with hmem | hmem
      · exact hdisjoint _ hmem _ (List.mem_map_of_mem hjob) rfl
      · obtain ⟨custom, hcustom, hname⟩ := List.mem_map.mp hmem
        refine hg.name_notMem hcustom (hreserved _ ?_)
        rw [hname, List.map_append]
        exact List.mem_append_right _ (List.mem_map_of_mem hjob)
    rw [hsafe]
    exact .ok _

/-! ### The plan of a pipeline -/

end Compiler

/-- **The plan of a workflow**: the graph has the agent job, the author's own jobs, and each
other generated job exactly if there is a reason for it. Of the generated jobs, each needs the
one in front of it, and the safe outputs job needs the activation job too. -/
structure JobGraph.IsPlanOf (graph : JobGraph) (w : Workflow) : Prop where
  mem_names : ∀ name, name ∈ graph.names ↔
    name = Names.agentJob ∨ name ∈ w.jobs.keys ∨
      (name = Names.preActivationJob ∧ w.HasChecks) ∨
      (name = Names.activationJob ∧ w.HasGate) ∨
      (name = Names.safeOutputsJob ∧ w.HasOutputs)
  has_preActivation : graph.has Names.preActivationJob = true ↔ w.HasChecks
  has_activation : graph.has Names.activationJob = true ↔ w.HasGate
  has_safeOutputs : graph.has Names.safeOutputsJob = true ↔ w.HasOutputs
  agent_needs : graph.Needs Names.agentJob Names.activationJob ↔
    graph.has Names.activationJob = true
  activation_needs : graph.Needs Names.activationJob Names.preActivationJob ↔
    graph.has Names.preActivationJob = true
  safeOutputs_needs : graph.Needs Names.safeOutputsJob Names.agentJob ↔
    graph.has Names.safeOutputsJob = true
  safeOutputs_needs_activation : graph.Needs Names.safeOutputsJob Names.activationJob ↔
    graph.has Names.safeOutputsJob = true ∧ graph.has Names.activationJob = true

namespace Compiler

variable {c : Compiler} {w : Workflow} {sourceStem : Option String} {ctx : Context}
  {g : Generated} {graph : JobGraph} {name need : String}

namespace Generates

/-- The names of the generated jobs, each with the reason for its job. -/
theorem mem_map_name (hg : c.Generates ctx g) :
    name ∈ (g.control ++ g.safeOutputs.toList).map (·.name) ↔
      name = Names.agentJob ∨ (name = Names.preActivationJob ∧ ctx.workflow.HasChecks) ∨
        (name = Names.activationJob ∧ ctx.workflow.HasGate) ∨
        (name = Names.safeOutputsJob ∧ ctx.workflow.HasOutputs) := by
  have hoption : ∀ (o : Option Job) (n : String), (∀ job, o = some job → job.name = n) →
      (name ∈ o.toList.map (·.name) ↔ name = n ∧ o.isSome = true) := fun o n h => by
    cases o with
    | none => simp
    | some job => simp [h job rfl]
  have hpre : ∀ job, g.preActivation.map (·.job) = some job →
      job.name = Names.preActivationJob := fun job h => (hg.origin_preActivation_iff.mp h).2
  rw [Generated.control, List.map_append, List.map_append, List.map_append, List.mem_append,
    List.mem_append, List.mem_append, hoption _ _ hpre,
    hoption _ _ fun job h => (hg.activation_place h).1,
    hoption _ _ fun job h => (hg.safeOutputs_place h).1, Option.isSome_map,
    hg.isSome_preActivation_iff, hg.isSome_activation_iff, hg.isSome_safeOutputs_iff,
    List.map_singleton, List.mem_singleton, hg.agent_place.1, or_comm (b := name = _), or_assoc,
    or_assoc]

/-- A job of the graph needs what it was made to need. -/
theorem needs_iff_of_origin (hgraph : assemble ctx g = .ok graph) {job : Job}
    (h : g.Origin ctx job) (hname : job.name = name) :
    graph.Needs name need ↔ need ∈ job.needs := by
  rw [← hname]
  exact JobGraph.needs_iff_mem ((mem_members_of_assemble hgraph).mpr h)

/-- A job that is not there needs nothing. -/
theorem not_needs_of_eq_false (h : graph.has name = false) : ¬graph.Needs name need :=
  fun hneeds => by
    rw [JobGraph.has_iff_mem_names.mpr hneeds.mem_names] at h
    cases h

/-- The agent job needs the activation job if there is one. -/
theorem agent_needs_iff (hg : c.Generates ctx g) (hgraph : assemble ctx g = .ok graph) :
    graph.Needs Names.agentJob Names.activationJob ↔ g.activation.job.isSome = true := by
  obtain ⟨hname, hneeds⟩ := hg.agent_place
  rw [needs_iff_of_origin hgraph .agent hname, hneeds, Agent.mem_needs]
  refine ⟨?_, fun hsome => .inl ⟨hsome, rfl⟩⟩
  rintro (⟨hsome, -⟩ | hreferenced)
  · exact hsome
  · rcases Agent.of_mem_referencedJobs hreferenced with ⟨custom, hcustom, hname⟩ | ⟨-, hname⟩
    · exact absurd (hname ▸ by decide) (hg.name_notMem hcustom)
    · exact absurd hname (by decide)

/-- The activation job needs the pre-activation job if there is one. -/
theorem activation_needs_iff (hg : c.Generates ctx g) (hgraph : assemble ctx g = .ok graph) :
    graph.Needs Names.activationJob Names.preActivationJob ↔
      g.preActivation.isSome = true := by
  cases hactivation : g.activation.job with
  | none =>
      have hhas : graph.has Names.activationJob = false := by
        rw [has_eq_isSome hgraph fun job => hg.origin_activation_iff, hactivation]
        rfl
      refine iff_of_false (not_needs_of_eq_false hhas) fun hpre => ?_
      have hsome := hg.activation_isSome hpre
      rw [hactivation] at hsome
      cases hsome
  | some job =>
      obtain ⟨hname, hneeds⟩ := hg.activation_place hactivation
      rw [needs_iff_of_origin hgraph (.activation hactivation) hname, hneeds, Activation.mem_needs]
      exact and_iff_left (.inl rfl)

/-- The safe outputs job needs the agent job, and the activation job if there is one. -/
theorem safeOutputs_needs_iff (hg : c.Generates ctx g) (hgraph : assemble ctx g = .ok graph)
    (hhas : graph.has Names.safeOutputsJob = g.safeOutputs.isSome) :
    graph.Needs Names.safeOutputsJob need ↔ g.safeOutputs.isSome = true ∧
      (need = Names.agentJob ∨
        g.activation.job.isSome = true ∧ need = Names.activationJob) := by
  cases hsafe : g.safeOutputs with
  | none =>
      rw [hsafe] at hhas
      exact iff_of_false (not_needs_of_eq_false hhas) fun h => nomatch h.1
  | some job =>
      obtain ⟨hname, hneeds⟩ := hg.safeOutputs_place hsafe
      rw [needs_iff_of_origin hgraph (.safeOutputs hsafe) hname, hneeds]
      cases g.activation.job.isSome <;> simp

/-- What is generated and assembled follows the plan of the workflow. -/
theorem isPlanOf (hg : c.Generates ctx g) (hgraph : assemble ctx g = .ok graph) :
    graph.IsPlanOf ctx.workflow := by
  have hpre : graph.has Names.preActivationJob = g.preActivation.isSome := by
    rw [has_eq_isSome hgraph fun job => hg.origin_preActivation_iff, Option.isSome_map]
  have hactivation : graph.has Names.activationJob = g.activation.job.isSome :=
    has_eq_isSome hgraph fun job => hg.origin_activation_iff
  have hsafe : graph.has Names.safeOutputsJob = g.safeOutputs.isSome := by
    rw [Bool.eq_iff_iff, ← hg.exists_safeOutputs_iff, JobGraph.has_iff_mem_names,
      JobGraph.mem_names]
    exact exists_congr fun job => and_congr_left fun _ => mem_members_of_assemble hgraph
  refine ⟨fun name => ?_, ?_, ?_, ?_, ?_, ?_, ?_, ?_⟩
  · rw [mem_names_of_assemble hgraph, hg.mem_map_name, Workflow.map_name_customJobs hg.customJobs,
      or_right_comm, or_assoc]
  · rw [hpre, hg.isSome_preActivation_iff]
  · rw [hactivation, hg.isSome_activation_iff]
  · rw [hsafe, hg.isSome_safeOutputs_iff]
  · rw [hg.agent_needs_iff hgraph, hactivation]
  · rw [hg.activation_needs_iff hgraph, hpre]
  · rw [hg.safeOutputs_needs_iff hgraph hsafe, hsafe]
    simp
  · rw [hg.safeOutputs_needs_iff hgraph hsafe, hsafe, hactivation]
    have hne : Names.activationJob ≠ Names.agentJob := by decide
    simp [hne]

end Generates

/-- No compilation ends because a name is taken. -/
theorem compileFrom_failsWith (c : Compiler) (w : Workflow) (sourceStem : Option String) :
    FailsWith (fun e => ∀ name, e ≠ .graph (.duplicateJob name)) (c.compileFrom w sourceStem) := by
  have hoff : ∀ e : CompileError, e.OffGraph → ∀ name, e ≠ .graph (.duplicateJob name) :=
    fun e he name => he _
  refine .bind_of_ok (.mono hoff (generate_failsWith c _)) fun g hg => ?_
  refine .bind (.mono hoff (generate_eq_ok_iff.mp hg).assemble_failsWith) fun graph => ?_
  refine .bind (.mapError fun e he name heq => ?_) fun _ => .ok _
  exact graph.validate_failsWith e he ⟨name, CompileError.graph.inj heq⟩

/-- **Which jobs a pipeline has.** The graph of a pipeline is the plan of its workflow, and no
workflow fails to compile because a name is taken. -/
theorem jobs_of_compileFrom (c : Compiler) (w : Workflow) (sourceStem : Option String) :
    (∀ p, c.compileFrom w sourceStem = .ok p → p.jobs.IsPlanOf w) ∧
      ∀ name, c.compileFrom w sourceStem ≠ .error (.graph (.duplicateJob name)) := by
  refine ⟨fun p hp => ?_, fun name herror => compileFrom_failsWith c w _ _ herror name rfl⟩
  obtain ⟨g, hg, hgraph, -, -⟩ := compileFrom_eq_ok_iff.mp hp
  exact hg.isPlanOf hgraph

/-- A workflow that locks is compiled, and its jobs follow its plan. -/
theorem jobs_of_compileFrom_locking :
    ∃ p, (pinning true).compileFrom (locking none) (some "triage") = .ok p ∧
      p.jobs.IsPlanOf (locking none) := by
  obtain ⟨p, hp, -⟩ := exists_compileFrom_locking true none (.inr rfl)
  exact ⟨p, hp, (jobs_of_compileFrom (pinning true) (locking none) (some "triage")).1 p hp⟩

end Compiler

end AgentPipeline
