import AgentPipeline.Proofs.Pipeline.Supply
import AgentPipeline.Proofs.Pipeline.Tokens

/-!
# No generated reference dangles

The control jobs of a pipeline refer to each other and to their own steps. The activation job
asks whether the pre-activation job let the run go on, and the safe outputs job asks which
outputs the agent asked for. A job reports what its steps report, the patch of the agent is
published if there is one, and the shared handler gets a map from the project handler.

The two ends of such a reference are made at different places and under conditions of their
own: the events that start the workflow, the checks that are configured, and the kinds of
outputs that the agent may ask for. They agree nevertheless. Each job that is built is
grounded, if the jobs that it asks something of have the outputs (`isGrounded_of_build`), and
in a pipeline that is compiled they do (`isGrounded_of_compileFrom`).
-/

namespace AgentPipeline

open Reference

variable {c : Compiler} {ctx : Context} {graph : JobGraph} {job : Job} {name : String}

/-- What the workflow supplies to a step is supplied to each job with the step. -/
theorem Step.IsGrounded.inJob {s : Step} {resolves : Target → Prop}
    (h : s.IsGrounded ctx.Supplies resolves) :
    s.IsGrounded (fun place => c.Supplies ctx name (.step s place)) resolves :=
  h.mono (fun _ _ => .step) fun _ h => h

/-- A step with texts that the workflow supplies is put to the end of a job. -/
theorem Job.IsGrounded.stepOf (h : job.IsGrounded (c.Supplies ctx name) graph) {s : Step}
    (hs : s.IsGrounded ctx.Supplies (Target.Resolves graph job.needs job.steps)) :
    (job.step s).IsGrounded (c.Supplies ctx name) graph :=
  h.step hs.inJob

/-- The braces of a template add no references. -/
theorem Reference.targets_wrapTemplate (text : String) :
    targets (wrapTemplate text) = targets text := by
  have hfront : Opens "$\x7b\x7b " ∧ targets "$\x7b\x7b " = [] := by decide +kernel
  have hback : Closes " \x7d\x7d" ∧ targets " \x7d\x7d" = [] := by decide +kernel
  rw [wrapTemplate, targets_enclosed hfront.1 hback.1, hfront.2, hback.2, List.nil_append,
    List.append_nil]

/-- What jobs report of their steps: the identifiers of the steps and the outputs. -/
def reports : List (String × String) :=
  [("react", "comment-id"), ("react", "comment-url"), ("react", "reaction-id"),
    ("lock-issue", "locked"), ("collect_output", "output"), ("collect_output", "output_types"),
    ("generate_patch", "has_patch"), (Dispatch.projectStepId, "temporary_project_map"),
    (Dispatch.sharedStepId, "processed_count")]

/-- What a job reports names the output of the step and nothing else. -/
theorem targets_stepOutput :
    ∀ e ∈ reports, targets (Activation.stepOutput e.1 e.2) = [.stepOutput e.1 e.2] := by
  decide +kernel

/-- A job reports of a step that it has. -/
theorem Job.IsGrounded.report {supplied : Job.Place → String → Prop}
    (h : job.IsGrounded supplied graph) (name : String) {step output : String}
    (hstep : ∃ s, .generated s ∈ job.steps ∧ s.id = some step)
    (hreport : (step, output) ∈ reports) :
    (job.output name (Activation.stepOutput step output)).IsGrounded supplied graph := by
  refine h.output ?_
  rw [targets_stepOutput _ hreport]
  exact List.forall_mem_singleton.mpr hstep

/-! ### The pre-activation job -/

namespace PreActivation

/-- The conjunction of the checks names what the checks name. -/
theorem targets_conjoined (conditions : List Condition) :
    targets (conjoined conditions) = conditions.flatMap fun c => targets c.render := by
  cases hc : Condition.conjunction conditions with
  | none =>
      rw [conjoined, hc, Condition.conjunction_eq_none_iff.mp hc]
      exact targets_eq_nil_of_count (by decide)
  | some c =>
      rw [conjoined, hc]
      exact targets_conjunction hc

/-- That a check passed is what its step reports. -/
theorem targets_passed {w : Workflow} {deadline : Option String} :
    ∀ check ∈ w.checks deadline,
      targets check.passed.render = [.stepOutput check.id check.output] := by
  have hall : ∀ e ∈ [("check_membership", "is_team_member"), ("check_stop_time", "stop_time_ok"),
      ("check_skip_if_match", "skip_check_ok"),
      ("check_skip_if_no_match", "skip_no_match_check_ok")],
      targets (Clause.stepOutputIs e.1 e.2 "true").render = [.stepOutput e.1 e.2] := by
    decide +kernel
  refine Workflow.forall_mem_checks.mpr
    ⟨fun _ => ?_, Workflow.forall_mem_gateChecks.mpr ⟨?_, ?_, ?_⟩⟩
  · exact hall ("check_membership", "is_team_member") (by simp)
  · exact fun _ _ => hall ("check_stop_time", "stop_time_ok") (by simp)
  · exact fun _ _ => hall ("check_skip_if_match", "skip_check_ok") (by simp)
  · exact fun _ _ => hall ("check_skip_if_no_match", "skip_no_match_check_ok") (by simp)

/-- **The pre-activation job** reports what its checks report. -/
theorem isGrounded_of_build (graph : JobGraph) (hcatalog : ctx.resolver.catalog = Pin.catalog)
    {pre : PreActivation} (h : build ctx = .ok (some pre)) :
    pre.job.IsGrounded (c.Supplies ctx Names.preActivationJob) graph := by
  rw [build_eq] at h
  obtain ⟨deadline, hdeadline, h⟩ := bind_eq_ok_iff.mp h
  split at h
  · cases h
  obtain ⟨scriptAction, hscript, h⟩ := bind_eq_ok_iff.mp h
  obtain rfl := Option.some.inj (Except.ok.inj h)
  let checks := ctx.workflow.checks deadline
  -- the job without steps: its condition compares the event with names of events
  have hbase : ({ (ofChecks ctx checks scriptAction).job with steps := [], outputs := .empty } :
      Job).IsGrounded (c.Supplies ctx Names.preActivationJob) graph := by
    refine ⟨.whole .runner, fun text htext => ?_, by rintro _ ⟨⟩, List.forall_mem_nil _,
      List.forall_mem_nil _, by simp, rfl, rfl, rfl⟩
    rw [ofChecks_condition] at htext
    split at htext
    · obtain rfl := Option.some.inj htext
      refine .of_eq_nil ?_
      rw [targets_conjoined, List.flatMap_map, List.flatMap_eq_nil_iff]
      intro event hevent
      have hevents : ∀ event ∈ "workflow_dispatch" :: Names.safeEvents,
          (Clause.eventIsNot event).render.toList.count '.' ≤ 1 := by
        decide
      refine targets_eq_nil_of_count (hevents event ?_)
      rcases Workflow.mem_uncheckedEvents hevent with hsafe | ⟨rfl, -⟩
      · exact List.mem_cons_of_mem _ hsafe
      · exact List.mem_cons_self
    · cases htext
  -- the steps are those of the checks
  have hsteps : ∀ s, .generated s ∈ checks.map (fun check => JobStep.generated
      (check.step scriptAction)) → s.IsGrounded (fun place =>
        c.Supplies ctx Names.preActivationJob (.step s place)) (Target.Resolves graph [] []) := by
    intro s hs
    obtain ⟨check, hcheck, heq⟩ := List.mem_map.mp hs
    obtain rfl := JobStep.generated.inj heq
    have haction : Grounded (ctx.Supplies .action) (Target.Resolves graph [] []) scriptAction :=
      Context.grounded_of_pin hcatalog (by simp [Names.actions]) hscript
    exact (Workflow.isGrounded_checks haction hdeadline check hcheck).inJob
  -- the output asks for what the checks report, and each check is a step of the job
  refine (hbase.addSteps hsteps).output fun t ht => ?_
  rw [targets_wrapTemplate, targets_conjoined] at ht
  obtain ⟨condition, hcondition, ht⟩ := List.mem_flatMap.mp ht
  obtain ⟨check, hcheck, rfl⟩ := List.mem_map.mp hcondition
  rw [targets_passed check hcheck] at ht
  obtain rfl := List.mem_singleton.mp ht
  exact ⟨check.step scriptAction, List.mem_map.mpr ⟨check, hcheck, rfl⟩, rfl⟩

end PreActivation

/-! ### The activation job -/

namespace Activation

variable {scriptAction : String}

/-- What the activation job asks of the pre-activation job. -/
def gateTargets : List Target :=
  [.result Names.preActivationJob, .jobOutput Names.preActivationJob Names.activatedOutput]

/-- The gate asks for nothing but the output of the pre-activation job. -/
theorem targets_gateClause (pre : PreActivation) :
    targets (gateClause pre).render ⊆ gateTargets := by
  have hactivated : targets (Clause.jobOutputIs Names.preActivationJob Names.activatedOutput
      "true").render = [.jobOutput Names.preActivationJob Names.activatedOutput] := by
    decide +kernel
  have hskipped : targets (Clause.jobResultIs Names.preActivationJob "skipped").render =
      [.result Names.preActivationJob] := by
    decide +kernel
  unfold gateClause
  split
  · rw [targets_or, hskipped, hactivated]
    exact List.Subset.refl _
  · rw [hactivated]
    exact List.subset_cons_self _ _

/-- The condition of the workflow stands between clauses whose references resolve. -/
theorem grounded_clauses {supplied : String → Prop} {resolves : Target → Prop} {w : Workflow}
    {pre : Option PreActivation} {kept : Option Condition} {condition : Condition}
    (hgate : ∀ p, pre = some p → ∀ t ∈ gateTargets, resolves t)
    (hkept : ∀ user, kept = some user → supplied user.render)
    (h : Condition.conjunction (clauses w pre kept) = some condition) :
    Grounded supplied resolves condition.render := by
  have hgate' : ∀ p, pre = some p → ∀ t ∈ targets (gateClause p).render, resolves t :=
    fun p hp t ht => hgate p hp t (targets_gateClause p ht)
  have hrun : ∀ t ∈ targets Clause.workflowRunFromHere.render, resolves t := by
    have hnil : targets Clause.workflowRunFromHere.render = [] := by decide +kernel
    rw [hnil]
    exact List.forall_mem_nil _
  -- the clauses around the condition of the author name what resolves, so it may be supplied
  cases kept with
  | none =>
      refine .own fun t ht => ?_
      rw [targets_conjunction h] at ht
      obtain ⟨clause, hclause, ht⟩ := List.mem_flatMap.mp ht
      have hall : ∀ clause ∈ clauses w pre none, ∀ t ∈ targets clause.render, resolves t :=
        forall_mem_clauses.mpr ⟨hgate', nofun, fun _ => hrun⟩
      exact hall clause hclause t ht
  | some user =>
      have huser : Grounded supplied resolves user.render := .whole (hkept user rfl)
      unfold clauses at h
      cases pre with
      | none =>
          split at h
          · obtain rfl := Option.some.inj h
            exact huser.and_left hrun
          · obtain rfl := Option.some.inj h
            exact huser
      | some p =>
          have hboth := Grounded.and_right (hgate' p rfl) huser
          split at h
          · obtain rfl := Option.some.inj h
            exact hboth.and_left hrun
          · obtain rfl := Option.some.inj h
            exact hboth

/-- Permissions refer to nothing. -/
theorem isGrounded_addPermissions (h : job.IsGrounded (c.Supplies ctx name) graph)
    (scopes : List (Scope × Level)) :
    (addPermissions job scopes).IsGrounded (c.Supplies ctx name) graph :=
  ⟨h.runner, h.condition, h.environment, h.env, h.outputs, h.steps, h.rest⟩

/-- The reaction comes with the step that its outputs refer to. -/
theorem isGrounded_addReaction
    (haction : ∀ resolves, Grounded (ctx.Supplies .action) resolves scriptAction)
    (h : job.IsGrounded (c.Supplies ctx name) graph) :
    (addReaction ctx.workflow scriptAction job).IsGrounded (c.Supplies ctx name) graph := by
  unfold addReaction
  split
  · next reaction event events hreaction hevents =>
    rw [← hevents]
    have hreact := job.exists_step (rfl : (reactionStep ctx.workflow reaction
      (startingEvents ctx.workflow Names.reactionEvents) scriptAction).id = some "react")
    have hstep := h.stepOf (isGrounded_reactionStep (haction _) hreaction)
    refine isGrounded_addPermissions (((hstep.report "comment_id" hreact ?_).report "comment_url"
      hreact ?_).report "reaction_id" hreact ?_) _ <;> simp [reports]
  · exact h

/-- The lock comes with the step that its output refers to. -/
theorem isGrounded_addLock
    (haction : ∀ resolves, Grounded (ctx.Supplies .action) resolves scriptAction)
    (h : job.IsGrounded (c.Supplies ctx name) graph) :
    (addLock ctx.workflow scriptAction job).IsGrounded (c.Supplies ctx name) graph := by
  unfold addLock
  split
  · next event events hlock hevents =>
    rw [← hevents]
    have hlock := job.exists_step (rfl : (lockStep
      (startingEvents ctx.workflow Names.lockableEvents) scriptAction).id = some "lock-issue")
    have hstep := h.stepOf (isGrounded_lockStep ctx.workflow (haction _))
    exact isGrounded_addPermissions (hstep.report "issue_locked" hlock (by simp [reports])) _
  · exact h

/-- The condition that moves to the agent job is the one of the workflow. -/
theorem condition_of_agentCondition {pre : Option PreActivation} {customJobs : List CustomJob}
    {a : Activation} {condition : Condition} (h : build ctx pre customJobs = .ok a)
    (hmoved : a.agentCondition = some condition) :
    ctx.workflow.condition.mapM readCondition = .ok (some condition) := by
  rw [build_eq] at h
  obtain ⟨user, huser, h⟩ := bind_eq_ok_iff.mp h
  split at h
  · obtain rfl := Except.ok.inj h
    cases hmoved
  · obtain ⟨scriptAction, -, h⟩ := bind_eq_ok_iff.mp h
    obtain rfl := Except.ok.inj h
    obtain ⟨rfl, -⟩ := Option.filter_eq_some_iff.mp hmoved
    exact huser

/-- **The activation job** asks of the pre-activation job what that reports, if it is there. -/
theorem isGrounded_of_build (hcatalog : ctx.resolver.catalog = Pin.catalog)
    {pre : Option PreActivation} {customJobs : List CustomJob} {a : Activation}
    (hgate : ∀ p, pre = some p →
      ∀ t ∈ gateTargets, t.Resolves graph (needs pre.isSome customJobs) [])
    (h : build ctx pre customJobs = .ok a) (hjob : a.job = some job) :
    job.IsGrounded (c.Supplies ctx Names.activationJob) graph := by
  rw [build_eq] at h
  obtain ⟨user, huser, h⟩ := bind_eq_ok_iff.mp h
  split at h
  · obtain rfl := Except.ok.inj h
    cases hjob
  obtain ⟨scriptAction, hscript, h⟩ := bind_eq_ok_iff.mp h
  obtain rfl := Except.ok.inj h
  obtain rfl := Option.some.inj hjob
  have haction : ∀ resolves, Grounded (ctx.Supplies .action) resolves scriptAction :=
    fun _ => Context.grounded_of_pin hcatalog (by simp [Names.actions]) hscript
  let kept := user.filter (isCovered (needs pre.isSome customJobs))
  have hbase : ({ name := Names.activationJob
                  runsOn := ctx.runner
                  needs := needs pre.isSome customJobs
                  condition := (Condition.conjunction (clauses ctx.workflow pre kept)).map
                    (·.render)
                  permissions := some .contentsRead } : Job).IsGrounded
      (c.Supplies ctx Names.activationJob) graph := by
    refine ⟨.whole .runner, fun text htext => ?_, by rintro _ ⟨⟩, List.forall_mem_nil _,
      List.forall_mem_nil _, by simp, rfl, rfl, rfl⟩
    obtain ⟨condition, hcondition, rfl⟩ := Option.map_eq_some_iff.mp htext
    refine grounded_clauses hgate (fun kept hkept => ?_) hcondition
    obtain ⟨rfl, -⟩ := Option.filter_eq_some_iff.mp hkept
    exact .condition (by simp) huser
  exact isGrounded_addLock haction
    (isGrounded_addReaction haction (hbase.stepOf (isGrounded_timestampStep (haction _))))

end Activation

/-! ### The agent job -/

namespace Agent

variable {activation : Activation} {customJobs : List CustomJob} {hasPreActivation : Bool}
  {scriptAction uploadAction : String} {s : SafeOutputs}

/-- The agent job before anything is published refers to nothing. -/
theorem isGrounded_core {permissions : Permissions} {checkoutAction : String}
    (haction : ∀ resolves, Grounded (ctx.Supplies .action) resolves checkoutAction)
    (hcondition : ∀ condition, activation.agentCondition = some condition →
      c.Supplies ctx Names.agentJob .condition condition.render) :
    (core ctx activation customJobs hasPreActivation (c.engineSteps ctx.workflow) permissions
      checkoutAction).IsGrounded (c.Supplies ctx Names.agentJob) graph := by
  have hbase : ({ core ctx activation customJobs hasPreActivation (c.engineSteps ctx.workflow)
      permissions checkoutAction with steps := [] } : Job).IsGrounded
      (c.Supplies ctx Names.agentJob) graph := by
    refine ⟨.whole .runner, fun text htext => ?_, fun text htext => .whole (.environment htext),
      List.forall_mem_nil _, List.forall_mem_nil _, by simp, rfl, rfl, rfl⟩
    obtain ⟨condition, hmoved, rfl⟩ := Option.map_eq_some_iff.mp htext
    exact .whole (hcondition condition hmoved)
  refine hbase.addSteps fun step hstep => ?_
  rcases mem_mainSteps.mp hstep with
    heq | ⟨s, hs, heq⟩ | heq | ⟨v, -, ⟨⟩⟩ | ⟨engineStep, hengine, heq⟩
  · obtain rfl := JobStep.generated.inj heq
    exact (isGrounded_checkoutStep (haction _)).inJob
  · obtain rfl := JobStep.generated.inj heq
    exact (isGrounded_setupStep hs).inJob
  · obtain rfl := JobStep.generated.inj heq
    exact isGrounded_promptStep.inJob
  · obtain rfl := JobStep.generated.inj heq
    -- a caller's engine supplies all texts of its steps, and the built-in one some of them
    cases hcaller : c.engine with
    | some steps =>
        have hmem : step ∈ steps ctx.workflow := by rwa [Compiler.engineSteps, hcaller] at hengine
        have hwhole : ∀ place text, c.Supplies ctx Names.agentJob (.step step place) text :=
          fun _ _ => .caller hcaller hmem
        exact ⟨.whole (hwhole _ _), fun _ _ => .whole (hwhole _ _), fun _ _ => .whole (hwhole _ _),
          fun _ _ => .whole (hwhole _ _), fun _ _ => .whole (hwhole _ _),
          fun _ _ => .whole (hwhole _ _)⟩
    | none =>
        have hmem : step ∈ ctx.workflow.engine.steps ctx.workflow := by
          rwa [Compiler.engineSteps, hcaller] at hengine
        exact (Engine.isGrounded_of_mem_steps hmem).mono (fun _ _ => .engine hcaller hengine)
          fun _ => id

/-- What is published refers to the steps in front of it. -/
theorem isGrounded_published
    (hscript : ∀ resolves, Grounded (ctx.Supplies .action) resolves scriptAction)
    (hupload : ∀ resolves, Grounded (ctx.Supplies .action) resolves uploadAction)
    (h : job.IsGrounded (c.Supplies ctx name) graph) :
    (published s scriptAction uploadAction job).IsGrounded (c.Supplies ctx name) graph := by
  have hcollect : ∃ step, .generated step ∈ ((job.step (collectStep s scriptAction)).step
      (uploadOutputStep uploadAction)).steps ∧ step.id = some "collect_output" :=
    ⟨collectStep s scriptAction, by simp [Job.step, Job.addSteps], rfl⟩
  have hsteps := (h.stepOf (isGrounded_collectStep (s := s) (hscript _))).stepOf
    (isGrounded_uploadOutputStep (hupload _))
  have hcollection : (addCollection s scriptAction uploadAction job).IsGrounded
      (c.Supplies ctx name) graph := by
    refine (hsteps.report "output" hcollect ?_).report "output_types" hcollect ?_ <;>
      simp [reports]
  unfold published
  split
  · have hmade := hcollection.stepOf isGrounded_patchStep
    have hpatch := (addCollection s scriptAction uploadAction job).exists_step
      (rfl : patchStep.id = some "generate_patch")
    have huploaded := hmade.stepOf (isGrounded_uploadPatchStep (hupload _) hpatch)
    obtain ⟨step, hstep, hid⟩ := hpatch
    exact huploaded.report "has_patch" ⟨step, List.mem_append_left _ hstep, hid⟩
      (by simp [reports])
  · exact hcollection

/-- **The agent job** refers to nothing but its own steps. -/
theorem isGrounded_of_build (graph : JobGraph) (hcatalog : ctx.resolver.catalog = Pin.catalog)
    (hcondition : ∀ condition, activation.agentCondition = some condition →
      c.Supplies ctx Names.agentJob .condition condition.render)
    (h : build ctx activation customJobs hasPreActivation (c.engineSteps ctx.workflow) = .ok job) :
    job.IsGrounded (c.Supplies ctx Names.agentJob) graph := by
  have hpin : ∀ a ∈ Names.actions, ∀ action, ctx.pin a = .ok action →
      ∀ resolves, Grounded (ctx.Supplies .action) resolves action :=
    fun a ha action haction _ => Context.grounded_of_pin hcatalog ha haction
  obtain ⟨permissions, checkoutAction, hcheckout,
    ⟨-, rfl⟩ | ⟨s, scriptAction, uploadAction, -, hscript, hupload, rfl⟩⟩ := build_eq_ok h
  · exact isGrounded_core (hpin _ (by simp [Names.actions]) _ hcheckout) hcondition
  · exact isGrounded_published (hpin _ (by simp [Names.actions]) _ hscript)
      (hpin _ (by simp [Names.actions]) _ hupload)
      (isGrounded_core (hpin _ (by simp [Names.actions]) _ hcheckout) hcondition)

/-- The agent job reports which types of outputs the agent asked for, if it may ask for any. -/
theorem mem_outputs_of_build {s : SafeOutputs} {engineSteps : List Step}
    (hs : ctx.workflow.outputs = some s)
    (h : build ctx activation customJobs hasPreActivation engineSteps = .ok job) :
    "output_types" ∈ job.outputs.keys := by
  obtain ⟨permissions, checkoutAction, -,
    ⟨hnone, -⟩ | ⟨s, scriptAction, uploadAction, -, -, -, rfl⟩⟩ := build_eq_ok h
  · rw [hs] at hnone
    cases hnone
  · unfold published
    split
    · exact Dictionary.mem_keys_insert.mpr (.inr (Dictionary.mem_keys_insert.mpr (.inl rfl)))
    · exact Dictionary.mem_keys_insert.mpr (.inl rfl)

end Agent

/-! ### The safe outputs job -/

/-- The entries of the dictionary of a list are in the list. -/
theorem Dictionary.mem_of_mem_ofList {α : Type} {l : List (String × α)} {e : String × α}
    (h : e ∈ (ofList l).entries) : e ∈ l := by
  suffices hfold : ∀ d : Dictionary α,
      e ∈ (l.foldl (fun d e => d.insert e.1 e.2) d).entries → e ∈ d.entries ∨ e ∈ l from
    (hfold empty h).resolve_left List.not_mem_nil
  clear h
  induction l with
  | nil => exact fun d h => .inl h
  | cons first l ih =>
      intro d h
      rcases ih (d.insert first.1 first.2) h with h | h
      · rcases mem_insertEntry h with rfl | h
        · exact .inr List.mem_cons_self
        · exact .inl h
      · exact .inr (List.mem_cons_of_mem first h)

namespace Dispatch

variable {s : SafeOutputs} {kinds : List OutputKind} {job' : Job}

/-- The job is grounded, and what is asked of the agent job resolves in it. -/
structure Ready (c : Compiler) (ctx : Context) (graph : JobGraph) (job : Job) : Prop where
  grounded : job.IsGrounded (c.Supplies ctx Names.safeOutputsJob) graph
  asks : ∀ t ∈ agentTargets, t.Resolves graph job.needs []

namespace Ready

/-- The gates of further steps resolve behind any steps, as they ask for the agent job. -/
theorem asks_behind (h : Ready c ctx graph job) (before : List JobStep) :
    ∀ t ∈ agentTargets, t.Resolves graph job.needs before :=
  fun t ht => (h.asks t ht).mono (List.nil_subset before)

/-- A grounded job with the same needs is ready as well. -/
theorem of_needs (h : Ready c ctx graph job) (hneeds : job'.needs = job.needs)
    (hjob' : job'.IsGrounded (c.Supplies ctx Names.safeOutputsJob) graph) :
    Ready c ctx graph job' :=
  ⟨hjob', hneeds ▸ h.asks⟩

/-- A stage that may be left out. -/
theorem of_ite (h : Ready c ctx graph job) {p : Prop} [Decidable p] {x : Except CompileError Job}
    (hx : x = .ok job' → Ready c ctx graph job') (hjob' : (if p then pure job else x) = .ok job') :
    Ready c ctx graph job' := by
  split at hjob'
  · exact Except.ok.inj hjob' ▸ h
  · exact hx hjob'

end Ready

/-- The job without steps is ready if it needs the agent job. -/
theorem ready_base (hs : ctx.workflow.outputs = some s) (hasActivation : Bool)
    (hagent : ∀ t ∈ agentTargets, t.Resolves graph (base ctx s hasActivation).needs []) :
    Ready c ctx graph (base ctx s hasActivation) := by
  refine ⟨⟨?_, ?_, by rintro _ ⟨⟩, fun e he => ?_, List.forall_mem_nil _, by simp [base], rfl, rfl,
    rfl⟩, hagent⟩
  · change Grounded _ _ (s.runsOn.getD ctx.runner)
    cases hrunner : s.runsOn with
    | some runner => exact .whole (.outputsRunner hs hrunner)
    | none => exact .whole .runner
  · rintro _ ⟨⟩
    have hcompleted : targets Clause.agentCompleted.render = [.result Names.agentJob] := by
      decide +kernel
    refine .own fun t ht => hagent t ?_
    rw [hcompleted] at ht
    exact List.mem_cons.mpr (.inl (List.mem_singleton.mp ht))
  · have hfixed : ∀ text ∈ [Agent.outputFile, "true"], text.toList.count '.' ≤ 1 := by decide
    have he := Dictionary.mem_of_mem_ofList he
    simp only [List.cons_append, List.nil_append, List.mem_cons] at he
    rcases he with rfl | rfl | he
    · exact .whole .workflowName
    · exact .of_count (hfixed _ (by simp))
    · split at he
      · obtain rfl := List.mem_singleton.mp he
        exact .of_count (hfixed _ (by simp))
      · cases he

section Stages

variable (hcatalog : ctx.resolver.catalog = Pin.catalog) (hs : ctx.workflow.outputs = some s)

include hcatalog hs

/-- The steps that prepare a working tree keep the job ready. -/
theorem ready_of_addWorkingTree (h : Ready c ctx graph job)
    (hstage : addWorkingTree ctx s kinds job = .ok job') : Ready c ctx graph job' := by
  obtain ⟨downloadAction, hdownload, hstage⟩ := bind_eq_ok_iff.mp hstage
  obtain ⟨checkoutAction, hcheckout, hstage⟩ := bind_eq_ok_iff.mp hstage
  obtain rfl := Except.ok.inj hstage
  have hasks := h.asks_behind job.steps
  refine h.of_needs rfl (h.grounded.addSteps fun step hstep => ?_)
  simp only [List.mem_cons, List.not_mem_nil, or_false, JobStep.generated.injEq] at hstep
  rcases hstep with rfl | rfl | rfl
  · exact (isGrounded_downloadPatchStep hasks (Context.grounded_of_pin hcatalog
      (by simp [Names.actions]) hdownload)).inJob
  · exact (isGrounded_checkoutStep hs hasks (Context.grounded_of_pin hcatalog
      (by simp [Names.actions]) hcheckout)).inJob
  · exact (isGrounded_credentialsStep hs hasks).inJob

/-- Behind the stage of the project handler there is a step to report of. -/
theorem ready_of_addProjects (h : Ready c ctx graph job)
    (hstage : addProjects ctx s kinds job = .ok job') :
    Ready c ctx graph job' ∧
      ∃ step, .generated step ∈ job'.steps ∧ step.id = some projectStepId := by
  obtain ⟨scriptAction, hscript, hstage⟩ := bind_eq_ok_iff.mp hstage
  obtain ⟨token, htoken, hstage⟩ := bind_eq_ok_iff.mp hstage
  obtain rfl := Except.ok.inj hstage
  have hproject := job.exists_step
    (rfl : (projectStep s kinds token scriptAction).id = some projectStepId)
  refine ⟨h.of_needs rfl ((h.grounded.stepOf ?_).report _ hproject (by simp [reports])), hproject⟩
  exact isGrounded_projectStep hs (h.asks_behind _)
    (Context.grounded_of_pin hcatalog (by simp [Names.actions]) hscript)
    (mapError_eq_ok_iff.mp htoken)

/-- The shared handler keeps the job ready if the project handler is there when its map is asked
for. -/
theorem ready_of_addShared (h : Ready c ctx graph job) {hasProjects : Bool}
    (hmap : hasProjects = true →
      ∃ step, .generated step ∈ job.steps ∧ step.id = some projectStepId)
    (hstage : addShared ctx s kinds hasProjects job = .ok job') : Ready c ctx graph job' := by
  obtain ⟨scriptAction, hscript, hstage⟩ := bind_eq_ok_iff.mp hstage
  obtain rfl := Except.ok.inj hstage
  have hshared := job.exists_step (rfl : (sharedStep s kinds hasProjects
    (s.standardToken ctx.workflow.githubToken) scriptAction).id = some sharedStepId)
  refine h.of_needs rfl ((h.grounded.stepOf ?_).report _ hshared (by simp [reports]))
  exact isGrounded_sharedStep hs (h.asks_behind _)
    (Context.grounded_of_pin hcatalog (by simp [Names.actions]) hscript) hmap

/-- A handler of a single kind keeps the job ready. -/
theorem ready_of_addOwn (h : Ready c ctx graph job) {kind : OutputKind}
    (hstage : addOwn ctx s job kind = .ok job') : Ready c ctx graph job' := by
  obtain ⟨scriptAction, hscript, hstage⟩ := bind_eq_ok_iff.mp hstage
  obtain rfl := Except.ok.inj hstage
  exact h.of_needs rfl (h.grounded.stepOf (isGrounded_ownStep hs (h.asks_behind _)
    (Context.grounded_of_pin hcatalog (by simp [Names.actions]) hscript) kind))

/-- **The safe outputs job** asks of the agent job what that reports, and of the project
handler what it leaves, if it is there. -/
theorem isGrounded_of_ofSettings {hasActivation : Bool}
    (hagent : ∀ t ∈ agentTargets, t.Resolves graph (base ctx s hasActivation).needs [])
    (h : ofSettings ctx s hasActivation = .ok job) :
    job.IsGrounded (c.Supplies ctx Names.safeOutputsJob) graph := by
  rw [ofSettings_eq] at h
  obtain ⟨downloadAction, hdownload, h⟩ := bind_eq_ok_iff.mp h
  obtain ⟨job₁, htree, h⟩ := bind_eq_ok_iff.mp h
  obtain ⟨job₂, hprojects, h⟩ := bind_eq_ok_iff.mp h
  obtain ⟨job₃, hshared, h⟩ := bind_eq_ok_iff.mp h
  have h₀ : Ready c ctx graph (base ctx s hasActivation) := ready_base hs hasActivation hagent
  have hfirst : Ready c ctx graph
      ((base ctx s hasActivation).step (downloadOutputStep downloadAction)) :=
    h₀.of_needs rfl (h₀.grounded.stepOf (isGrounded_downloadOutputStep
      (Context.grounded_of_pin hcatalog (by simp [Names.actions]) hdownload)))
  have h₁ := hfirst.of_ite (ready_of_addWorkingTree hcatalog hs hfirst) htree
  have h₂ := h₁.of_ite (fun h => (ready_of_addProjects hcatalog hs h₁ h).1) hprojects
  -- the shared handler asks for the map exactly if the project handler is in front of it
  have hmap : decide (s.kindsIn .project ≠ []) = true →
      ∃ step, .generated step ∈ job₂.steps ∧ step.id = some projectStepId := fun hne => by
    rw [if_neg (of_decide_eq_true hne)] at hprojects
    exact (ready_of_addProjects hcatalog hs h₁ hprojects).2
  have h₃ := h₂.of_ite (ready_of_addShared hcatalog hs h₂ hmap) hshared
  exact (foldlM_invariant (P := Ready c ctx graph)
    (fun _ _ _ hready => ready_of_addOwn hcatalog hs hready) h₃ h).grounded

end Stages

end Dispatch

/-! ### The pipeline -/

namespace Compiler

variable {w : Workflow} {sourceStem : Option String} {g : Generated}

/-- What is asked of the pre-activation job resolves. -/
theorem Generates.resolves_gate (hg : c.Generates ctx g) (hgraph : assemble ctx g = .ok graph)
    {pre : PreActivation} (hpre : g.preActivation = some pre) :
    ∀ t ∈ Activation.gateTargets,
      t.Resolves graph (Activation.needs g.preActivation.isSome g.customJobs) [] := by
  have hget : graph.get? Names.preActivationJob = some pre.job :=
    JobGraph.get?_eq_some_iff.mpr ⟨(mem_members_of_assemble hgraph).mpr (.preActivation hpre),
      (hg.preActivation_place hpre).1⟩
  have hneeds : Names.preActivationJob ∈ Activation.needs g.preActivation.isSome g.customJobs := by
    rw [hpre]
    exact Activation.mem_needs.mpr ⟨rfl, .inl rfl⟩
  have houtput : Names.activatedOutput ∈ pre.job.outputs.keys := by
    obtain ⟨deadline, -, ⟨-, hnone⟩ | ⟨-, scriptAction, hsome⟩⟩ :=
      PreActivation.build_eq_ok hg.preActivation
    · rw [hpre] at hnone
      cases hnone
    · obtain rfl := Option.some.inj (hpre.symm.trans hsome)
      exact Dictionary.contains_iff_mem_keys.mp (Option.isSome_of_eq_some
        (PreActivation.ofChecks_activated ctx (ctx.workflow.checks deadline) scriptAction))
  simp only [Activation.gateTargets, List.forall_mem_cons]
  exact ⟨⟨hneeds, _, hget⟩, ⟨hneeds, _, hget, houtput⟩, List.forall_mem_nil _⟩

/-- What is asked of the agent job resolves if the agent may ask for outputs. -/
theorem Generates.resolves_agent (hg : c.Generates ctx g) (hgraph : assemble ctx g = .ok graph)
    {s : SafeOutputs} (hs : ctx.workflow.outputs = some s) :
    ∀ t ∈ Dispatch.agentTargets,
      t.Resolves graph (Dispatch.base ctx s g.activation.job.isSome).needs [] := by
  have hneeds : Names.agentJob ∈ (Dispatch.base ctx s g.activation.job.isSome).needs :=
    List.mem_cons_self
  have hget := hg.get?_agent hgraph
  simp only [Dispatch.agentTargets, List.forall_mem_cons]
  exact ⟨⟨hneeds, _, hget⟩, ⟨hneeds, _, hget, Agent.mem_outputs_of_build hs hg.agent⟩,
    List.forall_mem_nil _⟩

/-- **No generated reference dangles.** In a pipeline that is compiled, each reference in a
control job resolves, unless it stands in a text that the author of the workflow, or who
compiles it, supplies. -/
theorem isGrounded_of_compileFrom {p : Pipeline} (h : c.compileFrom w sourceStem = .ok p) :
    ∀ job ∈ p.jobs.members, job.name ∈ Names.reservedJobs →
      job.IsGrounded (c.Supplies (c.context w sourceStem) job.name) p.jobs := by
  obtain ⟨g, hg, hgraph, -, -⟩ := compileFrom_eq_ok_iff.mp h
  intro job hjob hname
  -- job by job; where one asks another for something, its place says that it needs it
  cases (mem_members_of_assemble hgraph).mp hjob with
  | preActivation hpre =>
      rw [(hg.preActivation_place hpre).1]
      exact PreActivation.isGrounded_of_build p.jobs rfl (hpre ▸ hg.preActivation)
  | activation hactivation =>
      rw [(hg.activation_place hactivation).1]
      exact Activation.isGrounded_of_build rfl (fun _ hpre => hg.resolves_gate hgraph hpre)
        hg.activation hactivation
  | agent =>
      rw [hg.agent_place.1]
      exact Agent.isGrounded_of_build p.jobs rfl
        (fun _ hmoved =>
          .condition (by simp) (Activation.condition_of_agentCondition hg.activation hmoved))
        hg.agent
  | custom hcustom hjob => exact absurd hname (hg.custom_place hcustom hjob).1
  | safeOutputs hsafe =>
      rw [(hg.safeOutputs_place hsafe).1]
      have hbuild := hsafe ▸ hg.safeOutputs
      unfold Dispatch.build at hbuild
      split at hbuild
      · next s hs =>
        obtain ⟨job', hjob', heq⟩ := map_eq_ok_iff.mp hbuild
        obtain rfl := Option.some.inj heq
        exact Dispatch.isGrounded_of_ofSettings rfl hs (hg.resolves_agent hgraph hs) hjob'
      · cases hbuild

/-- Only the agent job has steps whose conditions are supplied. -/
theorem Supplies.eq_agentJob {s : Step} {text : String}
    (h : c.Supplies ctx name (.step s .condition) text) : name = Names.agentJob := by
  cases h with
  | step h => cases h
  | engine | caller => rfl

/-- The shared handler of a workflow that posts issues asks of the agent job how it ended and
which types of outputs the agent asked for, and both are there. -/
theorem isGrounded_of_compileFrom_posting :
    ∃ p before s text, running.compileFrom (posting "token") none = .ok p ∧
      postingJob "token" ∈ p.jobs.members ∧
      (postingJob "token").steps = before ++ [.generated s] ∧ s.condition = some text ∧
      targets text = Dispatch.agentTargets ∧
      ∀ t ∈ targets text, t.Resolves p.jobs (postingJob "token").needs before := by
  obtain ⟨p, hp, hmem⟩ := exists_compileFrom_posting (show '$' ∉ "token".toList by decide)
  have hjob : postingJob "token" ∈ p.jobs.members := (hmem _).mpr (.safeOutputs rfl)
  have hgrounded := isGrounded_of_compileFrom hp (postingJob "token") hjob (by decide)
  have htargets : targets (Dispatch.anyOutput Clause.safeOutputType [.createIssue]) =
      Dispatch.agentTargets := by
    decide +kernel
  refine ⟨p, _, _, _, hp, hjob,
    (rfl : (postingJob "token").steps = [_] ++ [.generated _]), rfl, htargets, ?_⟩
  have hstep := (hgrounded.steps [_] _ [] rfl).condition _ rfl
  cases hstep with
  | own h => exact h
  | around _ hsupplied =>
      have hname : (postingJob "token").name = Names.agentJob := hsupplied.eq_agentJob
      exact absurd hname (by decide)

end Compiler

end AgentPipeline
