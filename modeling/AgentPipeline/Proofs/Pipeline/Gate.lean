import AgentPipeline.Proofs.Pipeline.Activation
import AgentPipeline.Proofs.Pipeline.PreActivation

/-!
# No run without its checks

Three texts stand between an event and the agent: the condition under which the
pre-activation job is skipped, its output, and the condition of the activation job. They are
written apart, and the runner puts them together.

Whatever the author of the workflow writes, and whatever the other texts at the leaves are
worth, a run that passes the condition of the activation job has passed all checks, or was
started by an event whose roles are not checked while nothing else is to check
(`passed_or_unchecked`). So no configured check can be bypassed.
-/

namespace AgentPipeline.Activation

open Condition (Evaluates)

variable {ctx : Context} {pre : Option PreActivation} {customJobs : List CustomJob}
  {a : Activation} {event : String} {v : String → Bool}

/-- A run that passes the gate passed all checks, or its event needs none of them. -/
theorem passed_or_unchecked {deadline : Option String} {scriptAction : String}
    (hne : ctx.workflow.checks deadline ≠ [])
    (h : (PreActivation.ofChecks ctx (ctx.workflow.checks deadline) scriptAction).Observed
      event v)
    (hgate : (gateClause (.ofChecks ctx (ctx.workflow.checks deadline) scriptAction)).eval v =
      true) :
    (∀ c ∈ ctx.workflow.checks deadline, c.passed.eval v = true) ∨
      (event ∈ ctx.workflow.uncheckedEvents ∧ ctx.workflow.gateChecks deadline = []) := by
  rw [eval_gateClause, Bool.or_eq_true, Bool.and_eq_true] at hgate
  rcases hgate with ⟨-, hskipped⟩ | hactivated
  · exact .inr (h.of_skipped hskipped)
  · exact .inl (h.passed_of_activated hne hactivated)

/-- **No bypass of the checks.** If the condition of the activation job is true, the checks
of the deadline and of the two queries passed if they are configured, whatever the event is.
The check of the roles passed if the roles are restricted, unless the event is a safe one
or, with the default roles, a dispatch. -/
theorem checks_passed_of_activated (hpre : PreActivation.build ctx = .ok pre)
    (h : build ctx pre customJobs = .ok a) (hobserved : ∀ p, pre = some p → p.Observed event v)
    (hcondition : ∀ job text, a.job = some job → job.condition = some text →
      Evaluates v text true) :
    ((ctx.workflow.stopTime.isSome = true →
        (Clause.stepOutputIs "check_stop_time" "stop_time_ok" "true").eval v = true) ∧
      (ctx.workflow.skipIfMatch.isSome = true →
        (Clause.stepOutputIs "check_skip_if_match" "skip_check_ok" "true").eval v = true) ∧
      (ctx.workflow.skipIfNoMatch.isSome = true →
        (Clause.stepOutputIs "check_skip_if_no_match" "skip_no_match_check_ok"
          "true").eval v = true)) ∧
    (ctx.workflow.roles ≠ .all → ctx.workflow.hasTrigger event = true →
      event ∉ ["schedule", "merge_group"] →
      ¬(event = "workflow_dispatch" ∧ ctx.workflow.roles = .default) →
      (Clause.stepOutputIs "check_membership" "is_team_member" "true").eval v = true) := by
  obtain ⟨deadline, hdeadline, hparts⟩ := PreActivation.build_eq_ok hpre
  -- either all checks were passed, or the roles are the only check and the event needs none
  have hchecked : (∀ c ∈ ctx.workflow.checks deadline, c.passed.eval v = true) ∨
      (event ∈ ctx.workflow.uncheckedEvents ∧ ctx.workflow.gateChecks deadline = []) := by
    rcases hparts with ⟨hnil, -⟩ | ⟨hne, scriptAction, rfl⟩
    · simp [hnil]
    · obtain ⟨job, text, t, hjob, htext, ht, hgate⟩ := exists_gate_of_build h
      have htrue := (Condition.evaluates_iff ht true).mp (hcondition job text hjob htext)
      exact passed_or_unchecked hne (hobserved _ rfl) (hgate v htrue)
  have hgateChecks : ∀ c ∈ ctx.workflow.gateChecks deadline, c.passed.eval v = true := by
    rcases hchecked with hpassed | ⟨-, hnothing⟩
    · exact (Workflow.forall_mem_checks.mp hpassed).2
    · simp [hnothing]
  obtain ⟨hstop, hmatch, hnoMatch⟩ := Workflow.forall_mem_gateChecks.mp hgateChecks
  refine ⟨⟨fun hsome => ?_, fun hsome => ?_, fun hsome => ?_⟩, ?_⟩
  · obtain ⟨d, hd⟩ := Option.isSome_iff_exists.mp (hdeadline.trans hsome)
    exact hstop d hd
  · obtain ⟨query, hquery⟩ := Option.isSome_iff_exists.mp hsome
    exact hmatch query hquery
  · obtain ⟨query, hquery⟩ := Option.isSome_iff_exists.mp hsome
    exact hnoMatch query hquery
  · intro hrestricted htrigger hsafe hdispatch
    have hneeded := Workflow.needsRoleCheck_of_hasTrigger hrestricted htrigger hsafe
    rcases hchecked with hpassed | ⟨hevent, -⟩
    · exact (Workflow.forall_mem_checks.mp hpassed).1 hneeded
    -- the two events without a check are the ones that the hypotheses exclude
    · rcases Workflow.mem_uncheckedEvents hevent with hevent | hevent
      · exact absurd hevent hsafe
      · exact absurd hevent hdispatch

/-- A run of an issue event that is checked for its roles and a query. -/
theorem checks_passed_of_issue :
    let w : Workflow :=
      { Workflow.named "triage" with
        triggers := .ofList [("issues", .null)], skipIfMatch := some ⟨"is:open", 3⟩ }
    let ctx : Context :=
      { workflow := w, strict := true, runner := "ubuntu-latest", now := 0, sourceStem := none,
        resolver := ⟨true, fun _ _ => some "ed597411d8f924073f98dfc5c65a23a2325f34cd", []⟩ }
    let skipped := Clause.jobResultIs Names.preActivationJob "skipped"
    let v : String → Bool :=
      fun text => text != (Clause.eventIsNot "issues").render && text != skipped.render
    ∃ pre a, PreActivation.build ctx = .ok (some pre) ∧ build ctx (some pre) [] = .ok a ∧
      pre.Observed "issues" v ∧
      (Clause.stepOutputIs "check_skip_if_match" "skip_check_ok" "true").eval v = true ∧
      (Clause.stepOutputIs "check_membership" "is_team_member" "true").eval v = true := by
  intro w ctx skipped v
  -- two checks; all that is asked is true but the name of the event and the skipped job
  have hchecks : ctx.workflow.checks none =
      [.membership .default, .skipIfMatch "triage" ⟨"is:open", 3⟩] := by decide +kernel
  have hskipped : skipped.eval v = false := by decide +kernel
  have hbuild : ∃ scriptAction a,
      PreActivation.build ctx =
        .ok (some (.ofChecks ctx (ctx.workflow.checks none) scriptAction)) ∧
      build ctx (some (.ofChecks ctx (ctx.workflow.checks none) scriptAction)) [] = .ok a ∧
      a.job = some (activationJob ctx [Names.preActivationJob]
        (clauses ctx.workflow
          (some (.ofChecks ctx (ctx.workflow.checks none) scriptAction)) none) scriptAction) := by
    rw [PreActivation.build_eq]
    simp only [build_eq]
    exact ⟨_, _, rfl, rfl, rfl⟩
  obtain ⟨scriptAction, a, hpre, hbuild, ha⟩ := hbuild
  -- the run is observed: the event, whether the job is skipped, and what it reports
  have hobserved : (PreActivation.ofChecks ctx (ctx.workflow.checks none)
      scriptAction).Observed "issues" v := by
    have hreadable : ∀ c ∈ (ctx.workflow.checks none).map Check.passed, Condition.Readable c :=
      List.forall_mem_map.mpr Workflow.readable_of_mem_checks
    refine ⟨fun name => ?_, ?_, ?_⟩
    · have hne : (Clause.eventIsNot name).render ≠ skipped.render := by
        simp [skipped, Clause.eventIsNot, Clause.differs, Clause.jobResultIs, Clause.equals,
          Condition.render, ← String.toList_inj]
      change ((Clause.eventIsNot name).render != _ && (Clause.eventIsNot name).render != _) = _
      rw [bne_iff_ne.mpr hne, Bool.and_true, Bool.eq_iff_iff, bne_iff_ne, Ne,
        Clause.render_eventIsNot_inj, decide_eq_true_iff]
      exact ne_comm
    · rw [hskipped, PreActivation.ofChecks_condition, hchecks]
      simp
    · rw [PreActivation.ofChecks_activated]
      refine iff_of_true (by decide +kernel) ⟨hskipped, _, rfl, ?_⟩
      rw [PreActivation.unwrapTemplate_conjoined hreadable (by simp [hchecks]),
        PreActivation.evaluates_conjoined hreadable (by simp [hchecks])]
      decide +kernel
  -- the condition of the activation job is true, as each of its clauses is
  have hcondition : ∀ job text, a.job = some job → job.condition = some text →
      Evaluates v text true := by
    intro job text hjob htext
    obtain rfl := Option.some.inj (ha.symm.trans hjob)
    have huser : ctx.workflow.condition.mapM readCondition = .ok none := rfl
    obtain ⟨t, ht, heval⟩ :=
      exists_parse_activationJob (readable_of_mem_clauses huser default) htext
    refine ⟨t, ht, (heval v).mpr (forall_mem_clauses.mpr ⟨?_, by simp, ?_⟩)⟩
    · rintro p ⟨⟩
      rw [eval_gateClause, Bool.or_eq_true]
      exact .inr (by decide +kernel)
    · intro hrun
      exact absurd hrun (by decide +kernel)
  obtain ⟨⟨-, hmatch, -⟩, hroles⟩ :=
    checks_passed_of_activated hpre hbuild (by rintro _ ⟨⟩; exact hobserved) hcondition
  exact ⟨_, a, hpre, hbuild, hobserved, hmatch rfl,
    hroles (by decide) (by decide +kernel) (by decide) (by decide)⟩

end AgentPipeline.Activation
