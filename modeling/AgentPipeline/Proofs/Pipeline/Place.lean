import AgentPipeline.Pipeline.Dispatch
import AgentPipeline.Proofs.Pipeline.PreActivation
import AgentPipeline.Proofs.Pipeline.Activation
import AgentPipeline.Proofs.Pipeline.Definition

/-!
# The places of the jobs

The **place** of a job in a pipeline is its name and the jobs that it needs. Each job gets
its place when it is begun, and no step, output or other part that is added later moves it.

The pre-activation job needs nothing. The activation job needs at most that one and what
stands between the two; all other jobs need some job if there is an activation job: the
agent job needs the activation job, the safe outputs job needs the agent job, and a job of
the author that asks for nothing gets the activation job.
-/

namespace AgentPipeline

namespace Job

/-- The names with one more are the old ones and that one, whether it was there or not. -/
theorem mem_addName {names : List String} {name x : String} :
    x ∈ addName names name ↔ x ∈ names ∨ x = name := by
  unfold addName
  split
  · next hmem => exact (or_iff_left_of_imp fun heq => heq ▸ hmem).symm
  · simp

/-- The names with some more, added one after the other. -/
theorem mem_foldl_addName {names more : List String} {x : String} :
    x ∈ more.foldl addName names ↔ x ∈ names ∨ x ∈ more := by
  induction more generalizing names with
  | nil => simp
  | cons name more ih => rw [List.foldl_cons, ih, mem_addName, List.mem_cons, or_assoc]

end Job

/-- The jobs stand at the same place. -/
structure Job.SamePlace (job job' : Job) : Prop where
  name : job'.name = job.name
  needs : job'.needs = job.needs

namespace Job.SamePlace

variable {job job₁ job' : Job}

/-- A job stands at its own place. -/
theorem refl (job : Job) : job.SamePlace job := ⟨rfl, rfl⟩

/-- Jobs at the place of another one stand at the same place. -/
theorem trans (h : job.SamePlace job₁) (h' : job₁.SamePlace job') : job.SamePlace job' :=
  ⟨h'.name.trans h.name, h'.needs.trans h.needs⟩

end Job.SamePlace

/-! ### The control jobs -/

namespace PreActivation

/-- The pre-activation job has the name that is reserved for it. -/
theorem ofChecks_name (ctx : Context) (checks : List Check) (scriptAction : String) :
    (ofChecks ctx checks scriptAction).job.name = Names.preActivationJob := rfl

/-- The pre-activation job needs nothing. -/
theorem ofChecks_needs (ctx : Context) (checks : List Check) (scriptAction : String) :
    (ofChecks ctx checks scriptAction).job.needs = [] := rfl

end PreActivation

namespace Activation

/-- A reaction does not move the job. -/
theorem samePlace_addReaction (w : Workflow) (scriptAction : String) (job : Job) :
    job.SamePlace (addReaction w scriptAction job) := by
  unfold addReaction
  split <;> exact ⟨rfl, rfl⟩

/-- A lock does not move the job. -/
theorem samePlace_addLock (w : Workflow) (scriptAction : String) (job : Job) :
    job.SamePlace (addLock w scriptAction job) := by
  unfold addLock
  split <;> exact ⟨rfl, rfl⟩

/-- The activation job has the name that is reserved for it. -/
theorem activationJob_name (ctx : Context) (needs : List String) (clauses : List Condition)
    (scriptAction : String) :
    (activationJob ctx needs clauses scriptAction).name = Names.activationJob :=
  ((samePlace_addReaction ..).trans (samePlace_addLock ..)).name

variable {hasPreActivation : Bool} {customJobs : List CustomJob} {need : String}

/-- The gated jobs are the author's that need the pre-activation job. -/
theorem mem_gatedNames : need ∈ gatedNames customJobs ↔
    ∃ custom ∈ customJobs, Names.preActivationJob ∈ custom.needs ∧ custom.name = need := by
  simp [gatedNames, NameSet.mem_toList_ofList, CustomJob.dependsOn, and_assoc]

/-- The activation job needs the pre-activation job, if there is one, and the gated jobs then. -/
theorem mem_needs : need ∈ needs hasPreActivation customJobs ↔ hasPreActivation = true ∧
    (need = Names.preActivationJob ∨
      ∃ custom ∈ customJobs, Names.preActivationJob ∈ custom.needs ∧ custom.name = need) := by
  cases hasPreActivation with
  | false => simp [needs]
  | true => simp [needs, Job.mem_foldl_addName, mem_gatedNames]

/-- The activation job needs something exactly if there is a pre-activation job. -/
theorem needs_eq_nil_iff : needs hasPreActivation customJobs = [] ↔ hasPreActivation = false := by
  cases hasPreActivation with
  | false => exact iff_of_true rfl rfl
  | true => exact iff_of_false (List.ne_nil_of_mem (mem_needs.mpr ⟨rfl, .inl rfl⟩)) nofun

end Activation

/-! ### The agent job -/

namespace Agent

/-- Collecting what the agent asks for does not move the job. -/
theorem samePlace_addCollection (s : SafeOutputs) (scriptAction uploadAction : String)
    (job : Job) : job.SamePlace (addCollection s scriptAction uploadAction job) := ⟨rfl, rfl⟩

/-- A patch that is uploaded does not move the job. -/
theorem samePlace_addPatch (uploadAction : String) (job : Job) :
    job.SamePlace (addPatch uploadAction job) := ⟨rfl, rfl⟩

/-- Publishing what the agent asks for does not move the job. -/
theorem samePlace_of_addPublication {ctx : Context} {s : SafeOutputs} {job job' : Job}
    (h : addPublication ctx s job = .ok job') : job.SamePlace job' := by
  obtain ⟨scriptAction, -, h⟩ := bind_eq_ok_iff.mp h
  obtain ⟨uploadAction, -, h⟩ := bind_eq_ok_iff.mp h
  obtain rfl := Except.ok.inj h
  have hcollection := samePlace_addCollection s scriptAction uploadAction job
  split
  · exact hcollection.trans (samePlace_addPatch uploadAction _)
  · exact hcollection

/-- The agent job needs the activation job, and otherwise only jobs that it refers to. -/
theorem mem_needs {hasActivation : Bool} {referenced : List String} {name : String} :
    name ∈ needs hasActivation referenced ↔
      (hasActivation = true ∧ name = Names.activationJob) ∨ name ∈ referenced := by
  rw [needs, Job.mem_foldl_addName]
  cases hasActivation <;> simp

/-- The jobs that it refers to are the author's, or the pre-activation job. -/
theorem of_mem_referencedJobs {w : Workflow} {condition : Option String}
    {customJobs : List CustomJob} {hasPreActivation : Bool} {name : String}
    (h : name ∈ referencedJobs w condition customJobs hasPreActivation) :
    (∃ custom ∈ customJobs, custom.name = name) ∨
      (hasPreActivation = true ∧ name = Names.preActivationJob) := by
  simpa using List.of_mem_filter h

/-- The place of the agent job. -/
theorem place_of_build {ctx : Context} {activation : Activation}
    {customJobs : List CustomJob} {hasPreActivation : Bool} {engineSteps : List Step}
    {job : Job} (h : build ctx activation customJobs hasPreActivation engineSteps = .ok job) :
    job.name = Names.agentJob ∧
      job.needs = needs activation.job.isSome
        (referencedJobs ctx.workflow (activation.agentCondition.map (·.render)) customJobs
          hasPreActivation) := by
  obtain ⟨permissions, -, h⟩ := bind_eq_ok_iff.mp h
  obtain ⟨checkoutAction, -, h⟩ := bind_eq_ok_iff.mp h
  split at h
  · have hplace := samePlace_of_addPublication h
    exact ⟨hplace.name, hplace.needs⟩
  · obtain rfl := Except.ok.inj h
    exact ⟨rfl, rfl⟩

end Agent

/-! ### The safe outputs job -/

/-- The second job differs from the first one at most in its steps and outputs. -/
def Job.SameFrame (job job' : Job) : Prop :=
  ∃ steps outputs, job' = { job with steps, outputs }

namespace Job.SameFrame

variable {job job₁ job' : Job}

/-- A job differs from itself in nothing. -/
theorem refl (job : Job) : job.SameFrame job := ⟨job.steps, job.outputs, rfl⟩

/-- Jobs that differ in their steps and outputs from a third one differ from each other in these. -/
theorem trans (h : job.SameFrame job₁) (h' : job₁.SameFrame job') : job.SameFrame job' := by
  obtain ⟨_, _, rfl⟩ := h
  obtain ⟨steps, outputs, rfl⟩ := h'
  exact ⟨steps, outputs, rfl⟩

/-- Steps and outputs do not move the job. -/
theorem samePlace (h : job.SameFrame job') : job.SamePlace job' := by
  obtain ⟨_, _, rfl⟩ := h
  exact ⟨rfl, rfl⟩

/-- Steps and outputs do not change the permissions. -/
theorem permissions (h : job.SameFrame job') : job'.permissions = job.permissions := by
  obtain ⟨_, _, rfl⟩ := h
  rfl

end Job.SameFrame

namespace Dispatch

variable {ctx : Context} {s : SafeOutputs} {job job' : Job}

/-- A checkout of the working tree adds a step. -/
theorem sameFrame_of_addWorkingTree {kinds : List OutputKind}
    (h : addWorkingTree ctx s kinds job = .ok job') : job.SameFrame job' := by
  obtain ⟨downloadAction, -, h⟩ := bind_eq_ok_iff.mp h
  obtain ⟨checkoutAction, -, h⟩ := bind_eq_ok_iff.mp h
  obtain rfl := Except.ok.inj h
  exact ⟨_, _, rfl⟩

/-- The handler of projects adds a step and an output. -/
theorem sameFrame_of_addProjects {kinds : List OutputKind}
    (h : addProjects ctx s kinds job = .ok job') : job.SameFrame job' := by
  obtain ⟨scriptAction, -, h⟩ := bind_eq_ok_iff.mp h
  obtain ⟨token, -, h⟩ := bind_eq_ok_iff.mp h
  obtain rfl := Except.ok.inj h
  exact ⟨_, _, rfl⟩

/-- The shared handler adds a step and outputs. -/
theorem sameFrame_of_addShared {kinds : List OutputKind} {hasProjects : Bool}
    (h : addShared ctx s kinds hasProjects job = .ok job') : job.SameFrame job' := by
  obtain ⟨scriptAction, -, h⟩ := bind_eq_ok_iff.mp h
  obtain rfl := Except.ok.inj h
  exact ⟨_, _, rfl⟩

/-- The handler of a kind with a step of its own adds that step. -/
theorem sameFrame_of_addOwn {kind : OutputKind} (h : addOwn ctx s job kind = .ok job') :
    job.SameFrame job' := by
  obtain ⟨scriptAction, -, h⟩ := bind_eq_ok_iff.mp h
  obtain rfl := Except.ok.inj h
  exact ⟨_, _, rfl⟩

/-- The safe outputs job gets its parts one after the other, each if it has any kinds. -/
theorem ofSettings_eq (ctx : Context) (s : SafeOutputs) (hasActivation : Bool) :
    ofSettings ctx s hasActivation =
      ctx.pin Names.downloadAction >>= fun downloadAction =>
        let job := (base ctx s hasActivation).step (downloadOutputStep downloadAction)
        let workingTree := s.kindsIn .workingTree
        let projects := s.kindsIn .project
        let messages := s.kindsIn .message
        (if workingTree = [] then pure job else addWorkingTree ctx s workingTree job) >>=
          fun job => (if projects = [] then pure job else addProjects ctx s projects job) >>=
            fun job =>
              (if messages = [] then pure job
                else addShared ctx s messages (projects ≠ []) job) >>=
                fun job => workingTree.foldlM (addOwn ctx s) job := by
  unfold ofSettings
  refine congrArg _ (funext fun downloadAction => ?_)
  by_cases htree : s.kindsIn .workingTree = [] <;>
    by_cases hprojects : s.kindsIn .project = [] <;>
      by_cases hmessages : s.kindsIn .message = [] <;>
        simp only [htree, hprojects, hmessages, if_true, if_false]

/-- A part that may be left out keeps the frame either way. -/
theorem sameFrame_of_ite {p : Prop} [Decidable p] {x : Except CompileError Job}
    (hx : x = .ok job' → job.SameFrame job')
    (h : (if p then pure job else x) = .ok job') : job.SameFrame job' := by
  split at h
  · obtain rfl := Except.ok.inj h
    exact .refl job
  · exact hx h

/-- The safe outputs job is its base with steps and outputs. -/
theorem sameFrame_of_ofSettings {hasActivation : Bool}
    (h : ofSettings ctx s hasActivation = .ok job) :
    (base ctx s hasActivation).SameFrame job := by
  rw [ofSettings_eq] at h
  obtain ⟨downloadAction, -, h⟩ := bind_eq_ok_iff.mp h
  obtain ⟨job₁, htree, h⟩ := bind_eq_ok_iff.mp h
  obtain ⟨job₂, hprojects, h⟩ := bind_eq_ok_iff.mp h
  obtain ⟨job₃, hshared, h⟩ := bind_eq_ok_iff.mp h
  have h₀ : (base ctx s hasActivation).SameFrame
      ((base ctx s hasActivation).step (downloadOutputStep downloadAction)) := ⟨_, _, rfl⟩
  have h₁ := sameFrame_of_ite sameFrame_of_addWorkingTree htree
  have h₂ : job₁.SameFrame job₂ := sameFrame_of_ite sameFrame_of_addProjects hprojects
  have h₃ : job₂.SameFrame job₃ := sameFrame_of_ite sameFrame_of_addShared hshared
  have h₄ : job₃.SameFrame job :=
    foldlM_invariant (P := job₃.SameFrame)
      (fun job₁ kind job₂ h₁ hstep => h₁.trans (sameFrame_of_addOwn hstep)) (.refl job₃) h
  exact h₀.trans (h₁.trans (h₂.trans (h₃.trans h₄)))

/-- The place of the safe outputs job. -/
theorem place_of_build {hasActivation : Bool} (h : build ctx hasActivation = .ok (some job)) :
    job.name = Names.safeOutputsJob ∧
      job.needs = Names.agentJob :: (if hasActivation then [Names.activationJob] else []) := by
  unfold build at h
  split at h
  · obtain ⟨job, hjob, ⟨⟩⟩ := map_eq_ok_iff.mp h
    have hplace := (sameFrame_of_ofSettings hjob).samePlace
    exact ⟨hplace.name, hplace.needs⟩
  · cases h

end Dispatch

/-! ### The author's jobs -/

namespace CustomJob

/-- What is taken over from a definition does not move the job. -/
theorem samePlace_of_converts {job job' : Job} {key : String} {v : Yaml.Value}
    (h : Converts job key v job') : job.SamePlace job' := by
  cases h <;> exact ⟨rfl, rfl⟩

/-- The place of a job of the author: its needs are those of the definition, or the activation job
if the definition has none and there is one. -/
theorem place_of_toJob {c : CustomJob} {runner : String} {activationExists : Bool} {job : Job}
    (h : c.toJob runner activationExists = .ok job) :
    job.name = c.name ∧ job.needs = c.effectiveNeeds activationExists := by
  have hplace := addEntries_invariant (P := Job.SamePlace _)
    (fun hentry hjob => hjob.trans (samePlace_of_converts hentry)) (.refl _) h
  exact ⟨hplace.name, hplace.needs⟩

/-- A job of the author has the name under which it is defined, which is not reserved. -/
theorem parse_eq_ok {name : String} {v : Yaml.Value} {c : CustomJob}
    (h : parse name v = .ok c) : c.name = name ∧ name ∉ Names.reservedJobs := by
  unfold parse at h
  split at h
  · cases h
  · next hreserved =>
    split at h
    · cases h
    · split at h
      · cases h
      · split at h <;> cases h
        exact ⟨rfl, by simpa using hreserved⟩

end CustomJob

end AgentPipeline
