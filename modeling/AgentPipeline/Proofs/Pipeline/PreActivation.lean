import AgentPipeline.Pipeline.PreActivation
import AgentPipeline.Proofs.Condition.Clause
import AgentPipeline.Proofs.Condition.Reference

/-!
# What the pre-activation job checks

The pre-activation job has a step for each check, an output that says whether all of them
passed, and sometimes a condition that keeps it from running. `Observed` says what the
runner makes of these when an event starts the workflow: it evaluates the condition, skips
the job if the condition is false, and otherwise evaluates the output.

The two texts mean what they should. The output is `true` only if every check passed
(`Observed.passed_of_activated`), and the job is skipped only for an event whose roles are
not checked, when there is nothing else to check (`Observed.of_skipped`).
-/

namespace AgentPipeline

open Condition (Readable Evaluates)

/-! ### Checks -/

/-- The clause on a check that was passed can be read back. -/
theorem Check.readable_passed {c : Check} (hid : Token.IsPath c.id)
    (houtput : Token.IsPath c.output) : Readable c.passed :=
  Clause.readable_stepOutputIs hid houtput (by decide)

namespace Workflow

/-- The checks besides that of the roles are those of the deadline and the two queries, as
far as they are configured. -/
theorem forall_mem_gateChecks {w : Workflow} {deadline : Option String} {P : Check → Prop} :
    (∀ c ∈ w.gateChecks deadline, P c) ↔
      (∀ d, deadline = some d → P (.stopTime w.name d)) ∧
      (∀ q, w.skipIfMatch = some q → P (.skipIfMatch w.name q)) ∧
      (∀ q, w.skipIfNoMatch = some q → P (.skipIfNoMatch w.name q)) := by
  simp [gateChecks, or_imp, forall_and]

/-- The checks are the one of the roles, if there is one, and those of the gate. -/
theorem forall_mem_checks {w : Workflow} {deadline : Option String} {P : Check → Prop} :
    (∀ c ∈ w.checks deadline, P c) ↔
      (w.needsRoleCheck = true → P (.membership w.roles)) ∧
      ∀ c ∈ w.gateChecks deadline, P c := by
  simp [checks, or_imp, forall_and]

/-- The clauses on all checks can be read back. -/
theorem readable_of_mem_checks {w : Workflow} {deadline : Option String} :
    ∀ c ∈ w.checks deadline, Readable c.passed := by
  refine forall_mem_checks.mpr ⟨fun _ => ?_, forall_mem_gateChecks.mpr ⟨?_, ?_, ?_⟩⟩
  · exact Check.readable_passed (by decide : Token.IsPath "check_membership")
      (by decide : Token.IsPath "is_team_member")
  · intro d _
    exact Check.readable_passed (by decide : Token.IsPath "check_stop_time")
      (by decide : Token.IsPath "stop_time_ok")
  · intro q _
    exact Check.readable_passed (by decide : Token.IsPath "check_skip_if_match")
      (by decide : Token.IsPath "skip_check_ok")
  · intro q _
    exact Check.readable_passed (by decide : Token.IsPath "check_skip_if_no_match")
      (by decide : Token.IsPath "skip_no_match_check_ok")

/-- The roles are checked for every workflow that restricts them and that somebody in
particular can start. -/
theorem needsRoleCheck_of_hasTrigger {w : Workflow} {event : String} (hroles : w.roles ≠ .all)
    (htrigger : w.hasTrigger event = true) (hsafe : event ∉ Names.safeEvents) :
    w.needsRoleCheck = true := by
  have hrestricted : w.roles.isUnrestricted = false := by
    cases hr : w.roles with
    | all => exact absurd hr hroles
    | default | custom => rfl
  rw [needsRoleCheck, hrestricted, Bool.not_false, Bool.true_and, List.any_eq_true]
  exact ⟨event, Dictionary.contains_iff_mem_keys.mp htrigger, by simpa using hsafe⟩

/-- The events without a check of the roles are the safe ones and, with the default roles,
the dispatch. -/
theorem mem_uncheckedEvents {w : Workflow} {event : String} (h : event ∈ w.uncheckedEvents) :
    event ∈ Names.safeEvents ∨ (event = "workflow_dispatch" ∧ w.roles = .default) := by
  rw [uncheckedEvents, List.mem_append] at h
  refine h.imp_right fun h => ?_
  split at h
  · next hdispatch =>
    refine ⟨List.mem_singleton.mp h, ?_⟩
    cases hr : w.roles with
    | default => rfl
    | all | custom => simp [hr, Roles.defaultIncludesWrite] at hdispatch
  · cases h

/-- The clauses on the events without a check can be read back. -/
theorem readable_of_mem_uncheckedEvents {w : Workflow} {event : String}
    (h : event ∈ w.uncheckedEvents) : Readable (Clause.eventIsNot event) := by
  refine Clause.readable_eventIsNot ?_
  rcases mem_uncheckedEvents h with hsafe | ⟨rfl, -⟩
  · have hquotable : ∀ e ∈ Names.safeEvents, Token.IsQuotable e := by decide
    exact hquotable event hsafe
  · decide

end Workflow

namespace PreActivation

/-- The text of several readable conditions is read as their conjunction. -/
theorem evaluates_conjoined {cs : List Condition} (hcs : ∀ c ∈ cs, Readable c) (hne : cs ≠ [])
    (v : String → Bool) (value : Bool) :
    Evaluates v (conjoined cs) value ↔ cs.all (·.eval v) = value := by
  cases hc : Condition.conjunction cs with
  | none => exact absurd (Condition.conjunction_eq_none_iff.mp hc) hne
  | some c =>
      obtain ⟨t, ht, heval⟩ := Condition.exists_parse_conjunction hcs hc
      rw [conjoined, hc, ← heval]
      exact Condition.evaluates_iff ht value

/-- The text of several readable conditions can be put into a template. -/
theorem unwrapTemplate_conjoined {cs : List Condition} (hcs : ∀ c ∈ cs, Readable c)
    (hne : cs ≠ []) :
    Reference.unwrapTemplate (Reference.wrapTemplate (conjoined cs)) = conjoined cs := by
  cases hc : Condition.conjunction cs with
  | none => exact absurd (Condition.conjunction_eq_none_iff.mp hc) hne
  | some c =>
      have hreadable := Condition.readable_conjunction hcs hc
      rw [conjoined, hc]
      exact Reference.unwrapTemplate_wrapTemplate hreadable.trimmed_render hreadable.render_ne

/-- The job has a condition if the roles are all there is to check. -/
theorem ofChecks_condition (ctx : Context) (checks : List Check) (scriptAction : String) :
    (ofChecks ctx checks scriptAction).job.condition =
      if (ctx.workflow.needsRoleCheck && checks.length == 1) = true then
        some (conjoined (ctx.workflow.uncheckedEvents.map Clause.eventIsNot))
      else none := rfl

/-- The job reports whether all checks were passed. -/
theorem ofChecks_activated (ctx : Context) (checks : List Check) (scriptAction : String) :
    (ofChecks ctx checks scriptAction).job.outputs.get? Names.activatedOutput =
      some (Reference.wrapTemplate (conjoined (checks.map Check.passed))) := by
  simp [ofChecks, Job.output, Dictionary.get?_insert]

/-- Only the first step of a build looks at the text of the deadline. -/
theorem build_eq (ctx : Context) :
    build ctx =
      ctx.workflow.stopTime.mapM (fun value =>
          (Deadline.resolve value ctx.now).mapError CompileError.config) >>= fun deadline =>
        if ctx.workflow.checks deadline = [] then pure none
        else ctx.pin Names.scriptAction >>= fun scriptAction =>
          pure (some (ofChecks ctx (ctx.workflow.checks deadline) scriptAction)) := by
  simp only [build]
  cases ctx.workflow.stopTime with
  | none => rfl
  | some value => rfl

/-- **The parts of a build**: the deadline is resolved if there is one, and there is a job
exactly if there is something to check. -/
theorem build_eq_ok {ctx : Context} {pre : Option PreActivation} (h : build ctx = .ok pre) :
    ∃ deadline : Option String, deadline.isSome = ctx.workflow.stopTime.isSome ∧
      ((ctx.workflow.checks deadline = [] ∧ pre = none) ∨
        (ctx.workflow.checks deadline ≠ [] ∧ ∃ scriptAction,
          pre = some (ofChecks ctx (ctx.workflow.checks deadline) scriptAction))) := by
  rw [build_eq] at h
  obtain ⟨deadline, hdeadline, h⟩ := bind_eq_ok_iff.mp h
  refine ⟨deadline, isSome_of_mapM hdeadline, ?_⟩
  split at h
  · next hnil => exact .inl ⟨hnil, (Except.ok.inj h).symm⟩
  · next hne =>
    obtain ⟨scriptAction, -, h⟩ := bind_eq_ok_iff.mp h
    exact .inr ⟨hne, scriptAction, (Except.ok.inj h).symm⟩

/-! ### What the runner observes -/

/-- **What the runner makes of a pre-activation job** when an event starts the workflow. Of
the texts at the leaves of conditions, those about the event are decided by the event, and
those about the result and the output of the job by its condition and its output. The
others may have any value. -/
structure Observed (pre : PreActivation) (event : String) (v : String → Bool) : Prop where
  /-- the event is compared with names of events -/
  event_name : ∀ name, (Clause.eventIsNot name).eval v = decide (event ≠ name)
  /-- the job is skipped exactly if it has a condition, and that is false -/
  skipped : (Clause.jobResultIs Names.preActivationJob "skipped").eval v = true ↔
    ∃ text, pre.job.condition = some text ∧ Evaluates v text false
  /-- the output is `true` exactly if the job ran and its expression is true -/
  activated :
    (Clause.jobOutputIs Names.preActivationJob Names.activatedOutput "true").eval v = true ↔
      (Clause.jobResultIs Names.preActivationJob "skipped").eval v = false ∧
      ∃ value, pre.job.outputs.get? Names.activatedOutput = some value ∧
        Evaluates v (Reference.unwrapTemplate value) true

namespace Observed

variable {ctx : Context} {deadline : Option String} {scriptAction event : String}
  {v : String → Bool}

/-- The job is skipped only for an event whose roles are not checked, if nothing else is to
check. -/
theorem of_skipped
    (h : Observed (ofChecks ctx (ctx.workflow.checks deadline) scriptAction) event v)
    (hskipped : (Clause.jobResultIs Names.preActivationJob "skipped").eval v = true) :
    event ∈ ctx.workflow.uncheckedEvents ∧ ctx.workflow.gateChecks deadline = [] := by
  obtain ⟨text, htext, hfalse⟩ := h.skipped.mp hskipped
  rw [ofChecks_condition] at htext
  split at htext
  · next honly =>
    obtain rfl := Option.some.inj htext
    rw [Bool.and_eq_true, beq_iff_eq] at honly
    have hreadable : ∀ c ∈ ctx.workflow.uncheckedEvents.map Clause.eventIsNot, Readable c :=
      List.forall_mem_map.mpr fun _ he => Workflow.readable_of_mem_uncheckedEvents he
    rw [evaluates_conjoined hreadable (by simp [Workflow.uncheckedEvents, Names.safeEvents]),
      List.all_eq_false] at hfalse
    obtain ⟨c, hc, hevent⟩ := hfalse
    obtain ⟨name, hname, rfl⟩ := List.mem_map.mp hc
    rw [h.event_name] at hevent
    obtain rfl : event = name := by simpa using hevent
    refine ⟨hname, ?_⟩
    -- the check of the roles is the only one
    simpa [Workflow.checks, honly.1] using honly.2
  · cases htext

/-- Every check passed if the output says so. -/
theorem passed_of_activated
    (h : Observed (ofChecks ctx (ctx.workflow.checks deadline) scriptAction) event v)
    (hne : ctx.workflow.checks deadline ≠ [])
    (hactivated : (Clause.jobOutputIs Names.preActivationJob Names.activatedOutput
      "true").eval v = true) :
    ∀ c ∈ ctx.workflow.checks deadline, c.passed.eval v = true := by
  obtain ⟨-, value, hvalue, htrue⟩ := h.activated.mp hactivated
  rw [ofChecks_activated] at hvalue
  obtain rfl := Option.some.inj hvalue
  have hreadable : ∀ c ∈ (ctx.workflow.checks deadline).map Check.passed, Readable c :=
    List.forall_mem_map.mpr Workflow.readable_of_mem_checks
  have hne' : (ctx.workflow.checks deadline).map Check.passed ≠ [] := by simpa using hne
  rw [unwrapTemplate_conjoined hreadable hne', evaluates_conjoined hreadable hne',
    List.all_eq_true] at htrue
  exact List.forall_mem_map.mp htrue

end Observed

end PreActivation

end AgentPipeline
