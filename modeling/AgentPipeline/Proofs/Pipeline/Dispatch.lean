import AgentPipeline.Proofs.Pipeline.Place
import AgentPipeline.Proofs.SafeOutput.Kind

/-!
# The steps of the safe outputs job

The safe outputs job is made in stages, and each stage puts its steps behind those of the
stages in front of it. What a stage has to find first are the references to the actions that
its steps run, and the stage of the project handler also the token of that handler. All of
this is found if the job is built (`Found`), and then the steps are a function of the context
and the settings (`steps_of_ofSettings`).
-/

namespace AgentPipeline

namespace SafeOutputs

variable {s : SafeOutputs} {kind : OutputKind} {category : Category}

/-- The kinds are those that are configured. -/
theorem mem_kinds : kind ∈ s.kinds ↔ s.has kind = true := by
  simp [kinds, OutputKind.mem_all]

/-- The kinds of a category are the configured ones in it. -/
theorem mem_kindsIn :
    kind ∈ s.kindsIn category ↔ s.has kind = true ∧ kind.category = category := by
  simp [kindsIn, mem_kinds]

/-- There are kinds if a category has some. -/
theorem kinds_ne_nil (h : s.kindsIn category ≠ []) : s.kinds ≠ [] :=
  fun hnil => h (by rw [kindsIn, hnil, List.filter_nil])

end SafeOutputs

/-- The settings of the safe outputs count if they configure a kind. -/
theorem Workflow.outputs_eq_some_iff {w : Workflow} {s : SafeOutputs} :
    w.outputs = some s ↔ w.safeOutputs = some s ∧ s.kinds ≠ [] := by
  rw [outputs, Option.filter_eq_some_iff, SafeOutputs.isEmpty, Bool.not_eq_true',
    List.isEmpty_eq_false_iff]

/-- The second job has some more generated steps than the first one. -/
def Job.Adds (job : Job) (steps : List Step) (job' : Job) : Prop :=
  job'.steps = job.steps ++ steps.map .generated

/-- Steps added one group after the other are added together. -/
theorem Job.Adds.trans {job job₁ job' : Job} {l l' : List Step} (h : job.Adds l job₁)
    (h' : job₁.Adds l' job') : job.Adds (l ++ l') job' := by
  rw [Adds, h', h, List.map_append, List.append_assoc]

/-- A job of generated steps has these steps. -/
theorem Job.generated_mem_steps {job : Job} {l : List Step} (h : job.steps = l.map .generated)
    {step : Step} : .generated step ∈ job.steps ↔ step ∈ l := by
  simp [h]

/-- The reference to an action, empty if there is none. -/
def Context.action (ctx : Context) (action : String × String) : String :=
  (ctx.pin action).toOption.getD ""

namespace Dispatch

variable {ctx : Context} {s : SafeOutputs} {job job₁ job' : Job} {kinds : List OutputKind}
  {hasActivation : Bool}

/-- The token of the project handler, empty if there is none. -/
def handlerToken (ctx : Context) (s : SafeOutputs) : String :=
  (s.projectToken ctx.strict).toOption.getD ""

/-- **What the stages have to find**: the reference to each action that a step runs, and the
token of the project handler if there is one. -/
structure Found (ctx : Context) (s : SafeOutputs) : Prop where
  download : ctx.pin Names.downloadAction = .ok (ctx.action Names.downloadAction)
  checkout : s.kindsIn .workingTree ≠ [] →
    ctx.pin Names.checkoutAction = .ok (ctx.action Names.checkoutAction)
  script : s.kinds ≠ [] → ctx.pin Names.scriptAction = .ok (ctx.action Names.scriptAction)
  token : s.kindsIn .project ≠ [] → s.projectToken ctx.strict = .ok (handlerToken ctx s)

/-! ### Steps -/

section Steps

variable (ctx : Context) (s : SafeOutputs)

/-- The steps that prepare a working tree. -/
def setupSteps (kinds : List OutputKind) : List Step :=
  let condition := anyOutput Clause.outputTypePresent kinds
  let token := s.standardToken ctx.workflow.githubToken
  [downloadPatchStep condition (ctx.action Names.downloadAction),
    checkoutStep condition token (ctx.action Names.checkoutAction),
    credentialsStep condition token]

/-- The step of the project handler. -/
def projectHandler (kinds : List OutputKind) : Step :=
  projectStep s kinds (handlerToken ctx s) (ctx.action Names.scriptAction)

/-- The step of the shared handler. -/
def sharedHandler (kinds : List OutputKind) : Step :=
  sharedStep s kinds (s.kindsIn .project ≠ []) (s.standardToken ctx.workflow.githubToken)
    (ctx.action Names.scriptAction)

/-- The step of a kind that has one of its own. -/
def ownHandler (kind : OutputKind) : Step :=
  ownStep s kind (s.kindToken kind ctx.workflow.githubToken) (ctx.action Names.scriptAction)

/-- What a function makes of the kinds of a category, nothing if there are none. -/
def stage (category : Category) (steps : List OutputKind → List Step) : List Step :=
  if s.kindsIn category = [] then [] else steps (s.kindsIn category)

/-- **The steps of the job**, stage by stage. -/
def steps : List Step :=
  [downloadOutputStep (ctx.action Names.downloadAction)] ++
    stage s .workingTree (setupSteps ctx s) ++
    stage s .project (fun l => [projectHandler ctx s l]) ++
    stage s .message (fun l => [sharedHandler ctx s l]) ++
    (s.kindsIn .workingTree).map (ownHandler ctx s)

end Steps

/-- A stage has the steps made of the kinds of its category, if there are any. -/
theorem mem_stage {category : Category} {f : List OutputKind → List Step} {step : Step} :
    step ∈ stage s category f ↔ s.kindsIn category ≠ [] ∧ step ∈ f (s.kindsIn category) := by
  rw [stage]
  split <;> simp_all

/-- A step of the job is the download, or it belongs to one of the stages. -/
theorem mem_steps {step : Step} :
    step ∈ steps ctx s ↔
      step = downloadOutputStep (ctx.action Names.downloadAction) ∨
      (s.kindsIn .workingTree ≠ [] ∧ step ∈ setupSteps ctx s (s.kindsIn .workingTree)) ∨
      (s.kindsIn .project ≠ [] ∧ step = projectHandler ctx s (s.kindsIn .project)) ∨
      (s.kindsIn .message ≠ [] ∧ step = sharedHandler ctx s (s.kindsIn .message)) ∨
      ∃ kind ∈ s.kindsIn .workingTree, step = ownHandler ctx s kind := by
  simp only [steps, List.mem_append, List.mem_singleton, mem_stage, List.mem_map, or_assoc,
    eq_comm (b := step)]

/-- The steps of the kinds have identifiers of their own. -/
theorem stepId_notMem (kind : OutputKind) : kind.stepId ∉ [projectStepId, sharedStepId] := by
  have hall : ∀ kind ∈ OutputKind.all,
      (kind.key.toList.map fun c => if c = '-' then '_' else c) ∉
        [projectStepId, sharedStepId].map String.toList := by
    decide
  intro hmem
  have htext := List.mem_map_of_mem (f := String.toList) hmem
  rw [OutputKind.stepId, OutputKind.toList_outputType] at htext
  exact hall kind (OutputKind.mem_all kind) htext

/-- Only the handlers have identifiers. -/
theorem mem_steps_of_id {step : Step} {id : String} (hid : step.id = some id) :
    step ∈ steps ctx s ↔
      (s.kindsIn .project ≠ [] ∧ step = projectHandler ctx s (s.kindsIn .project)) ∨
      (s.kindsIn .message ≠ [] ∧ step = sharedHandler ctx s (s.kindsIn .message)) ∨
      ∃ kind ∈ s.kindsIn .workingTree, step = ownHandler ctx s kind := by
  rw [mem_steps]
  refine ⟨?_, fun h => .inr (.inr h)⟩
  rintro (rfl | ⟨-, hstep⟩ | h)
  · cases hid
  · simp only [setupSteps, List.mem_cons, List.not_mem_nil, or_false] at hstep
    rcases hstep with rfl | rfl | rfl <;> cases hid
  · exact h

/-- The project handler is there if a project kind is configured, and no other step has its
identifier. -/
theorem mem_steps_project {step : Step} (hid : step.id = some projectStepId) :
    step ∈ steps ctx s ↔
      s.kindsIn .project ≠ [] ∧ step = projectHandler ctx s (s.kindsIn .project) := by
  rw [mem_steps_of_id hid]
  refine ⟨?_, .inl⟩
  rintro (h | ⟨-, rfl⟩ | ⟨kind, -, rfl⟩)
  · exact h
  · exact absurd (Option.some.inj hid) (by decide : sharedStepId ≠ projectStepId)
  · exact absurd (Option.some.inj hid ▸ List.mem_cons_self) (stepId_notMem kind)

/-- The step of a kind with one of its own is there if the kind is configured, and no other
step has its identifier. -/
theorem mem_steps_own {kind : OutputKind} (hcategory : kind.category = .workingTree)
    {step : Step} (hid : step.id = some kind.stepId) :
    step ∈ steps ctx s ↔ s.has kind = true ∧ step = ownHandler ctx s kind := by
  have hnot := stepId_notMem kind
  rw [List.mem_cons, List.mem_singleton, not_or] at hnot
  rw [mem_steps_of_id hid]
  constructor
  · rintro (⟨-, rfl⟩ | ⟨-, rfl⟩ | ⟨k, hk, rfl⟩)
    · exact absurd (Option.some.inj hid).symm hnot.1
    · exact absurd (Option.some.inj hid).symm hnot.2
    · obtain rfl : k = kind := OutputKind.outputType_injective (Option.some.inj hid)
      exact ⟨(SafeOutputs.mem_kindsIn.mp hk).1, rfl⟩
  · rintro ⟨hhas, hstep⟩
    exact .inr (.inr ⟨kind, SafeOutputs.mem_kindsIn.mpr ⟨hhas, hcategory⟩, hstep⟩)

/-! ### Stages -/

/-- The stage of the working tree adds the setup, with the reference that it finds. -/
theorem adds_of_addWorkingTree (h : addWorkingTree ctx s kinds job = .ok job') :
    ctx.pin Names.checkoutAction = .ok (ctx.action Names.checkoutAction) ∧
      job.Adds (setupSteps ctx s kinds) job' := by
  obtain ⟨downloadAction, hdownload, h⟩ := bind_eq_ok_iff.mp h
  obtain ⟨checkoutAction, hcheckout, h⟩ := bind_eq_ok_iff.mp h
  obtain rfl := Except.ok.inj h
  refine ⟨eq_ok_getD hcheckout "", ?_⟩
  rw [Job.Adds, setupSteps, Context.action, Context.action, hdownload, hcheckout]
  rfl

/-- The stage of the projects adds the project handler, with the reference and the token that it
finds. -/
theorem adds_of_addProjects (h : addProjects ctx s kinds job = .ok job') :
    (ctx.pin Names.scriptAction = .ok (ctx.action Names.scriptAction) ∧
      s.projectToken ctx.strict = .ok (handlerToken ctx s)) ∧
      job.Adds [projectHandler ctx s kinds] job' := by
  obtain ⟨scriptAction, hscript, h⟩ := bind_eq_ok_iff.mp h
  obtain ⟨token, htoken, h⟩ := bind_eq_ok_iff.mp h
  obtain rfl := Except.ok.inj h
  rw [mapError_eq_ok_iff] at htoken
  refine ⟨⟨eq_ok_getD hscript "", eq_ok_getD htoken ""⟩, ?_⟩
  rw [Job.Adds, projectHandler, handlerToken, Context.action, hscript, htoken]
  rfl

/-- The stage of the messages adds the shared handler, with the reference that it finds. -/
theorem adds_of_addShared
    (h : addShared ctx s kinds (s.kindsIn .project ≠ []) job = .ok job') :
    ctx.pin Names.scriptAction = .ok (ctx.action Names.scriptAction) ∧
      job.Adds [sharedHandler ctx s kinds] job' := by
  obtain ⟨scriptAction, hscript, h⟩ := bind_eq_ok_iff.mp h
  obtain rfl := Except.ok.inj h
  refine ⟨eq_ok_getD hscript "", ?_⟩
  rw [Job.Adds, sharedHandler, Context.action, hscript]
  rfl

/-- The stage of a kind adds its handler, with the reference that it finds. -/
theorem adds_of_addOwn {kind : OutputKind} (h : addOwn ctx s job kind = .ok job') :
    ctx.pin Names.scriptAction = .ok (ctx.action Names.scriptAction) ∧
      job.Adds [ownHandler ctx s kind] job' := by
  obtain ⟨scriptAction, hscript, h⟩ := bind_eq_ok_iff.mp h
  obtain rfl := Except.ok.inj h
  refine ⟨eq_ok_getD hscript "", ?_⟩
  rw [Job.Adds, ownHandler, Context.action, hscript]
  rfl

/-- The kinds with a step of their own add one step each. -/
theorem adds_of_foldlM_addOwn (h : kinds.foldlM (addOwn ctx s) job = .ok job') :
    (kinds ≠ [] → ctx.pin Names.scriptAction = .ok (ctx.action Names.scriptAction)) ∧
      job.Adds (kinds.map (ownHandler ctx s)) job' := by
  induction kinds generalizing job with
  | nil =>
      obtain rfl := Except.ok.inj h
      rw [Job.Adds, List.map_nil, List.map_nil, List.append_nil]
      exact ⟨fun hne => absurd rfl hne, rfl⟩
  | cons kind kinds ih =>
      rw [List.foldlM_cons] at h
      obtain ⟨job₁, hstep, hrest⟩ := bind_eq_ok_iff.mp h
      obtain ⟨hscript, hadds⟩ := adds_of_addOwn hstep
      exact ⟨fun _ => hscript, hadds.trans (ih hrest).2⟩

/-- A stage without kinds is left out, and adds nothing. -/
theorem adds_of_ite {category : Category} (steps : List OutputKind → List Step) {P : Prop}
    {x : Except CompileError Job}
    (hx : x = .ok job' → P ∧ job.Adds (steps (s.kindsIn category)) job')
    (h : (if s.kindsIn category = [] then pure job else x) = .ok job') :
    (s.kindsIn category ≠ [] → P) ∧ job.Adds (stage s category steps) job' := by
  split at h
  · next hnil =>
    obtain rfl := Except.ok.inj h
    rw [Job.Adds, stage, if_pos hnil, List.map_nil, List.append_nil]
    exact ⟨fun hne => absurd hnil hne, rfl⟩
  · next hne =>
    obtain ⟨hp, hadds⟩ := hx h
    rw [stage, if_neg hne]
    exact ⟨fun _ => hp, hadds⟩

/-- **The steps of the job.** All that the stages look for is found, and the job has their
steps. -/
theorem steps_of_ofSettings (h : ofSettings ctx s hasActivation = .ok job) :
    Found ctx s ∧ job.steps = (steps ctx s).map .generated := by
  rw [ofSettings_eq] at h
  obtain ⟨downloadAction, hdownload, h⟩ := bind_eq_ok_iff.mp h
  obtain ⟨job₁, htree, h⟩ := bind_eq_ok_iff.mp h
  obtain ⟨job₂, hprojects, h⟩ := bind_eq_ok_iff.mp h
  obtain ⟨job₃, hshared, h⟩ := bind_eq_ok_iff.mp h
  -- each stage adds its steps and has found what they need
  obtain ⟨hcheckout, htree⟩ := adds_of_ite (setupSteps ctx s) adds_of_addWorkingTree htree
  obtain ⟨htoken, hprojects⟩ :=
    adds_of_ite (fun kinds => [projectHandler ctx s kinds]) adds_of_addProjects hprojects
  obtain ⟨hmessage, hshared⟩ :=
    adds_of_ite (fun kinds => [sharedHandler ctx s kinds]) adds_of_addShared hshared
  obtain ⟨hown, howns⟩ := adds_of_foldlM_addOwn h
  have hfirst : (base ctx s hasActivation).Adds [downloadOutputStep downloadAction]
      ((base ctx s hasActivation).step (downloadOutputStep downloadAction)) := rfl
  have hadds := (((hfirst.trans htree).trans hprojects).trans hshared).trans howns
  refine ⟨⟨eq_ok_getD hdownload "", hcheckout, fun hkinds => ?_, fun h => (htoken h).2⟩, ?_⟩
  -- a reference to the scripts is found by the stage of any kind
  · obtain ⟨kind, hkind⟩ := List.exists_mem_of_ne_nil _ hkinds
    have hmem : kind ∈ s.kindsIn kind.category :=
      SafeOutputs.mem_kindsIn.mpr ⟨SafeOutputs.mem_kinds.mp hkind, rfl⟩
    have hne := List.ne_nil_of_mem hmem
    cases hcategory : kind.category with
    | project => exact (htoken (hcategory ▸ hne)).1
    | message => exact hmessage (hcategory ▸ hne)
    | workingTree => exact hown (hcategory ▸ hne)
  · rw [steps, Context.action, hdownload]
    exact hadds

/-- The safe outputs job of a workflow. -/
theorem exists_of_build {o : Option Job} (hs : ctx.workflow.outputs = some s)
    (h : build ctx hasActivation = .ok o) :
    ∃ job, o = some job ∧ Found ctx s ∧ job.steps = (steps ctx s).map .generated := by
  unfold build at h
  rw [hs] at h
  obtain ⟨job, hjob, rfl⟩ := map_eq_ok_iff.mp h
  exact ⟨job, rfl, steps_of_ofSettings hjob⟩

end Dispatch

end AgentPipeline
