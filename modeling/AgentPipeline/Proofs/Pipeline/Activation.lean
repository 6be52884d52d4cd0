import AgentPipeline.Pipeline.Activation
import AgentPipeline.Proofs.Condition.Clause

/-!
# The condition of the activation job

The condition of the activation job is one text, made of generated clauses and of what the
author of the workflow wrote. When the runner reads this text, each clause has to come back
as it was put in: no parenthesis, quote or operator of the author's condition may change
what the clauses beside it mean.

`build_eq_ok` takes a build apart: the condition of the workflow is read, it stays with the
activation job or moves to the agent, and the job carries the conjunction of the clauses.
Every clause is readable (`readable_of_mem_clauses`), and so the text of their conjunction
is read as a tree that is true exactly when all of them are (`exists_parse_activationJob`).
-/

namespace AgentPipeline

namespace Job

/-- A further step leaves the condition of a job as it is. -/
@[simp] theorem step_condition (job : Job) (s : Step) :
    (job.step s).condition = job.condition := rfl

/-- A further step leaves the needs of a job as they are. -/
@[simp] theorem step_needs (job : Job) (s : Step) : (job.step s).needs = job.needs := rfl

/-- A further output leaves the condition of a job as it is. -/
@[simp] theorem output_condition (job : Job) (name value : String) :
    (job.output name value).condition = job.condition := rfl

/-- A further output leaves the needs of a job as they are. -/
@[simp] theorem output_needs (job : Job) (name value : String) :
    (job.output name value).needs = job.needs := rfl

end Job

namespace Activation

open Condition (Readable leaf)

/-- Permissions leave the condition of a job as it is. -/
@[simp] theorem addPermissions_condition (job : Job) (scopes : List (Scope × Level)) :
    (addPermissions job scopes).condition = job.condition := rfl

/-- Permissions leave the needs of a job as they are. -/
@[simp] theorem addPermissions_needs (job : Job) (scopes : List (Scope × Level)) :
    (addPermissions job scopes).needs = job.needs := rfl

/-- A reaction changes neither the condition nor the needs of a job. -/
@[simp] theorem addReaction_condition (w : Workflow) (scriptAction : String) (job : Job) :
    (addReaction w scriptAction job).condition = job.condition := by
  unfold addReaction
  split <;> simp

/-- The reaction leaves the needs of a job as they are. -/
@[simp] theorem addReaction_needs (w : Workflow) (scriptAction : String) (job : Job) :
    (addReaction w scriptAction job).needs = job.needs := by
  unfold addReaction
  split <;> simp

/-- A lock changes neither the condition nor the needs of a job. -/
@[simp] theorem addLock_condition (w : Workflow) (scriptAction : String) (job : Job) :
    (addLock w scriptAction job).condition = job.condition := by
  unfold addLock
  split <;> simp

/-- The lock leaves the needs of a job as they are. -/
@[simp] theorem addLock_needs (w : Workflow) (scriptAction : String) (job : Job) :
    (addLock w scriptAction job).needs = job.needs := by
  unfold addLock
  split <;> simp

/-- The condition of the activation job is the conjunction of the clauses. -/
@[simp] theorem activationJob_condition (ctx : Context) (needs : List String)
    (clauses : List Condition) (scriptAction : String) :
    (activationJob ctx needs clauses scriptAction).condition =
      (Condition.conjunction clauses).map (·.render) := by
  simp [activationJob]

/-- The needs of the activation job are those that it is given. -/
@[simp] theorem activationJob_needs (ctx : Context) (needs : List String)
    (clauses : List Condition) (scriptAction : String) :
    (activationJob ctx needs clauses scriptAction).needs = needs := by
  simp [activationJob]

/-! ### The parts of a build -/

/-- Only the first step of a build looks at the text of the workflow's condition. -/
theorem build_eq (ctx : Context) (pre : Option PreActivation) (customJobs : List CustomJob) :
    build ctx pre customJobs =
      ctx.workflow.condition.mapM readCondition >>= fun user =>
        if !isNeeded ctx.workflow pre.isSome then pure ⟨none, none⟩
        else
          let needs := needs pre.isSome customJobs
          ctx.pin Names.scriptAction >>= fun scriptAction =>
            pure ⟨some (activationJob ctx needs
                (clauses ctx.workflow pre (user.filter (isCovered needs))) scriptAction),
              user.filter fun c => !isCovered needs c⟩ := by
  simp only [build]
  cases ctx.workflow.condition with
  | none => rfl
  | some text => rfl

/-- **The parts of a build**: there is nothing to activate, or the condition of the workflow
is read, the job carries the conjunction of the clauses that apply, and the condition moves
to the agent if it is not one of them. -/
theorem build_eq_ok {ctx : Context} {pre : Option PreActivation}
    {customJobs : List CustomJob} {a : Activation}
    (h : build ctx pre customJobs = .ok a) :
    (isNeeded ctx.workflow pre.isSome = false ∧ a.job = none) ∨
      ∃ user scriptAction,
        ctx.workflow.condition.mapM readCondition = .ok user ∧
        a.job = some (activationJob ctx (needs pre.isSome customJobs)
          (clauses ctx.workflow pre
            (user.filter (isCovered (needs pre.isSome customJobs)))) scriptAction) ∧
        a.agentCondition =
          user.filter fun c => !isCovered (needs pre.isSome customJobs) c := by
  rw [build_eq] at h
  obtain ⟨user, huser, h⟩ := bind_eq_ok_iff.mp h
  cases hneeded : isNeeded ctx.workflow pre.isSome with
  | false =>
      rw [hneeded] at h
      obtain rfl : ⟨none, none⟩ = a := Except.ok.inj h
      exact .inl ⟨rfl, rfl⟩
  | true =>
      rw [hneeded] at h
      obtain ⟨scriptAction, -, h⟩ := bind_eq_ok_iff.mp h
      obtain rfl := Except.ok.inj h
      exact .inr ⟨user, scriptAction, huser, rfl, rfl⟩

/-! ### The clauses -/

/-- The pre-activation job passed or, if it may be, was skipped. -/
theorem eval_gateClause (pre : PreActivation) (v : String → Bool) :
    (gateClause pre).eval v =
      ((pre.hasSkipCondition &&
          (Clause.jobResultIs Names.preActivationJob "skipped").eval v) ||
        (Clause.jobOutputIs Names.preActivationJob Names.activatedOutput "true").eval v) := by
  unfold gateClause
  cases pre.hasSkipCondition <;> simp

/-- The gate behind the pre-activation job can be read back. -/
theorem readable_gateClause (pre : PreActivation) : Readable (gateClause pre) := by
  have hskipped : Readable (Clause.jobResultIs Names.preActivationJob "skipped") :=
    Clause.readable_jobResultIs (by decide +kernel) (by decide +kernel)
  have hactivated :
      Readable (Clause.jobOutputIs Names.preActivationJob Names.activatedOutput "true") :=
    Clause.readable_jobOutputIs (by decide +kernel) (by decide +kernel) (by decide +kernel)
  unfold gateClause
  split
  · exact hskipped.or hactivated
  · exact hactivated

/-- The clauses are the gate, the condition of the workflow and the check of `workflow_run`
events, as far as they apply. -/
theorem forall_mem_clauses {w : Workflow} {pre : Option PreActivation}
    {condition : Option Condition} {P : Condition → Prop} :
    (∀ c ∈ clauses w pre condition, P c) ↔
      (∀ p, pre = some p → P (gateClause p)) ∧ (∀ c, condition = some c → P c) ∧
        (w.hasTrigger "workflow_run" = true → P Clause.workflowRunFromHere) := by
  simp [clauses, or_imp, forall_and]

/-- There are no clauses if there is no gate, no condition and no workflow run. -/
theorem clauses_eq_nil_iff {w : Workflow} {pre : Option PreActivation}
    {condition : Option Condition} :
    clauses w pre condition = [] ↔
      pre = none ∧ condition = none ∧ w.hasTrigger "workflow_run" = false := by
  simp [clauses]

/-- Whatever the author writes is read before it becomes a clause. -/
theorem readable_of_mapM {condition : Option String} {c : Condition}
    (h : condition.mapM readCondition = .ok (some c)) : Readable c := by
  cases condition with
  | none => cases h
  | some text =>
      obtain ⟨c, hread, ⟨⟩⟩ := map_eq_ok_iff.mp h
      exact Condition.readable_of_parse (mapError_eq_ok_iff.mp hread)

/-- All clauses can be read back, the condition of the author among them. -/
theorem readable_of_mem_clauses {w : Workflow} {pre : Option PreActivation}
    {user : Option Condition} (huser : w.condition.mapM readCondition = .ok user)
    (keeps : Condition → Bool) :
    ∀ c ∈ clauses w pre (user.filter keeps), Readable c := by
  refine forall_mem_clauses.mpr ⟨fun p _ => readable_gateClause p, ?_, fun _ => ?_⟩
  · intro c hkept
    obtain ⟨rfl, -⟩ := Option.filter_eq_some_iff.mp hkept
    exact readable_of_mapM huser
  · exact Clause.readable_workflowRunFromHere

/-! ### The condition of the job -/

/-- The activation job has no condition if there are no clauses. -/
theorem activationJob_condition_eq_none_iff {ctx : Context} {needs : List String}
    {clauses : List Condition} {scriptAction : String} :
    (activationJob ctx needs clauses scriptAction).condition = none ↔ clauses = [] := by
  rw [activationJob_condition, Option.map_eq_none_iff, Condition.conjunction_eq_none_iff]

/-- The text of the job's condition is read as a tree that is true exactly when all clauses
are. -/
theorem exists_parse_activationJob {ctx : Context} {needs : List String}
    {clauses : List Condition} {scriptAction text : String}
    (hclauses : ∀ c ∈ clauses, Readable c)
    (h : (activationJob ctx needs clauses scriptAction).condition = some text) :
    ∃ t, Condition.parse text = .ok t ∧
      ∀ v : String → Bool, t.eval v = true ↔ ∀ c ∈ clauses, c.eval v = true := by
  rw [activationJob_condition] at h
  obtain ⟨c, hc, rfl⟩ := Option.map_eq_some_iff.mp h
  obtain ⟨t, ht, heval⟩ := Condition.exists_parse_conjunction hclauses hc
  exact ⟨t, ht, fun v => by rw [heval, List.all_eq_true]⟩

/-- Behind a pre-activation job there is an activation job that its gate guards. -/
theorem exists_gate_of_build {ctx : Context} {pre : PreActivation}
    {customJobs : List CustomJob} {a : Activation}
    (h : build ctx (some pre) customJobs = .ok a) :
    ∃ job text t, a.job = some job ∧ job.condition = some text ∧
      Condition.parse text = .ok t ∧
      ∀ v : String → Bool, t.eval v = true → (gateClause pre).eval v = true := by
  rcases build_eq_ok h with ⟨hneeded, -⟩ | ⟨user, scriptAction, huser, hsome, -⟩
  · simp [isNeeded] at hneeded
  generalize hjob : activationJob _ _ _ _ = job at hsome
  have hne : job.condition ≠ none := by
    rw [← hjob, Ne, activationJob_condition_eq_none_iff, clauses_eq_nil_iff]
    simp
  obtain ⟨text, htext⟩ := Option.ne_none_iff_exists'.mp hne
  obtain ⟨t, ht, heval⟩ :=
    exists_parse_activationJob (readable_of_mem_clauses huser _) (hjob ▸ htext)
  refine ⟨job, text, t, hsome, htext, ht, fun v hv => ?_⟩
  exact (forall_mem_clauses.mp ((heval v).mp hv)).1 pre rfl

/-- **The condition of the activation job.** There is none exactly if no clause applies, and
otherwise its text is read as a tree that is true exactly when the pre-activation job lets
the run go on, the condition of the workflow holds unless it has moved to the agent, and a
`workflow_run` event comes from here. -/
theorem condition_of_build {ctx : Context} {pre : Option PreActivation}
    {customJobs : List CustomJob} {a : Activation} {job : Job}
    (h : build ctx pre customJobs = .ok a) (hjob : a.job = some job) :
    ∃ user : Option Condition,
      ctx.workflow.condition.mapM readCondition = .ok user ∧
      a.agentCondition = user.filter (fun c => !isCovered job.needs c) ∧
      (job.condition = none ↔
        pre = none ∧ (a.agentCondition = none → user = none) ∧
          ctx.workflow.hasTrigger "workflow_run" = false) ∧
      ∀ text, job.condition = some text →
        ∃ t, Condition.parse text = .ok t ∧ ∀ v : String → Bool,
          t.eval v = true ↔
            (∀ p, pre = some p → (gateClause p).eval v = true) ∧
            (a.agentCondition = none → ∀ c, user = some c → c.eval v = true) ∧
            (ctx.workflow.hasTrigger "workflow_run" = true →
              Clause.workflowRunFromHere.eval v = true) := by
  rcases build_eq_ok h with ⟨-, hnone⟩ | ⟨user, scriptAction, huser, hsome, hagent⟩
  · rw [hnone] at hjob
    cases hjob
  obtain rfl := Option.some.inj (hsome.symm.trans hjob)
  rw [activationJob_needs]
  -- the condition stays exactly if it does not move
  have hkept : user.filter (isCovered (needs pre.isSome customJobs)) =
      if a.agentCondition = none then user else none := by
    rw [hagent]
    cases user with
    | none => simp
    | some c => by_cases hc : isCovered (needs pre.isSome customJobs) c = true <;> simp [hc]
  refine ⟨user, huser, hagent, ?_, ?_⟩
  · rw [activationJob_condition_eq_none_iff, clauses_eq_nil_iff, hkept, ite_eq_right_iff]
  · intro text htext
    obtain ⟨t, ht, heval⟩ := exists_parse_activationJob (readable_of_mem_clauses huser _) htext
    refine ⟨t, ht, fun v => ?_⟩
    rw [heval, forall_mem_clauses, hkept]
    by_cases hstays : a.agentCondition = none <;> simp [hstays]

/-- The author's `||` does not reach beyond the parentheses around it: neither the gate nor
the check of `workflow_run` events can be left out. -/
theorem condition_of_build_or :
    let w : Workflow :=
      { Workflow.named "triage" with
        condition := some "true || true", triggers := .ofList [("workflow_run", .null)] }
    let ctx : Context :=
      { workflow := w, strict := true, runner := "ubuntu-latest", now := 0, sourceStem := none,
        resolver := ⟨true, fun _ _ => some "ed597411d8f924073f98dfc5c65a23a2325f34cd", []⟩ }
    let pre : PreActivation := ⟨default, true⟩
    ∃ a job text t, build ctx (some pre) [] = .ok a ∧ a.job = some job ∧
      job.condition = some text ∧ Condition.parse text = .ok t ∧
      ∀ v, t.eval v = true →
        (gateClause pre).eval v = true ∧ Clause.workflowRunFromHere.eval v = true := by
  intro w ctx pre
  have hparse : Condition.parse "true || true" = .ok (.or (leaf "true") (leaf "true")) := by
    refine Condition.parse_eq_ok_iff.mpr
      ⟨[⟨.literal "true", 0⟩, ⟨.or, 5⟩, ⟨.literal "true", 8⟩], by decide +kernel, ?_⟩
    exact Condition.Derives.or (.conjunct (.unary (.primary (.literal "true"))))
      (.unary (.primary (.literal "true")))
  have hread : readCondition "true || true" = .ok (.or (leaf "true") (leaf "true")) := by
    have hunwrap : Reference.unwrapTemplate "true || true" = "true || true" := by decide +kernel
    rw [readCondition, hunwrap, hparse]
    rfl
  -- the condition is a disjunction, and there are two clauses beside it
  have hbuild : ∃ a job, build ctx (some pre) [] = .ok a ∧ a.job = some job := by
    have huser : ctx.workflow.condition.mapM readCondition =
        .ok (some (.or (leaf "true") (leaf "true"))) := map_eq_ok_iff.mpr ⟨_, hread, rfl⟩
    rw [build_eq, huser]
    exact ⟨_, _, rfl, rfl⟩
  obtain ⟨a, job, ha, hjob⟩ := hbuild
  obtain ⟨user, -, -, hnone, hsome⟩ := condition_of_build ha hjob
  have hcondition : job.condition ≠ none := by
    intro hcondition
    exact absurd (hnone.mp hcondition).1 (by simp)
  obtain ⟨text, htext⟩ := Option.ne_none_iff_exists'.mp hcondition
  obtain ⟨t, ht, heval⟩ := hsome text htext
  refine ⟨a, job, text, t, ha, hjob, htext, ht, fun v hv => ?_⟩
  obtain ⟨hgate, -, hrun⟩ := (heval v).mp hv
  exact ⟨hgate pre rfl, hrun (by decide +kernel)⟩

end Activation

end AgentPipeline
