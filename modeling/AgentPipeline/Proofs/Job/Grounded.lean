import AgentPipeline.Job.Graph
import AgentPipeline.Proofs.Reference.Targets

/-!
# Jobs without dangling references

A text of a job is evaluated at some moment: the condition of the job before all of its steps,
a text of a step behind the steps in front of it, and an output behind all steps. Then a
reference **resolves** if the job needs the job that the reference names, which has the output,
or if the step that the reference names is among those that were run (`Target.Resolves`).

A job is **grounded** if all references resolve that stand in its texts, those aside that are
supplied from elsewhere at known places (`Job.IsGrounded`). Outputs may not have any that are
supplied. Steps and outputs that are put to the end of a job leave it grounded.
-/

namespace AgentPipeline

open Reference (Target Grounded targets)

/-- **A reference resolves** in a job that needs some jobs, behind some of its steps. -/
def Reference.Target.Resolves (graph : JobGraph) (needs : List String) (before : List JobStep) :
    Target → Prop
  | .result job => job ∈ needs ∧ ∃ needed, graph.get? job = some needed
  | .jobOutput job output =>
    job ∈ needs ∧ ∃ needed, graph.get? job = some needed ∧ output ∈ needed.outputs.keys
  | .stepOutput step _ => ∃ s, .generated s ∈ before ∧ s.id = some step

/-- Further steps make no reference dangle. -/
theorem Reference.Target.Resolves.mono {graph : JobGraph} {needs : List String}
    {before before' : List JobStep} (hsub : before ⊆ before') {t : Target}
    (h : t.Resolves graph needs before) : t.Resolves graph needs before' := by
  cases t with
  | result | jobOutput => exact h
  | stepOutput step output =>
      obtain ⟨s, hs, hid⟩ := h
      exact ⟨s, hsub hs, hid⟩

/-! ### Steps -/

/-- The places of a step at which it has a text. -/
inductive Step.Place where
  | name | condition | action
  | input (key : String)
  | variable (key : String)
  | run

/-- **Grounded steps**: all texts of the step are grounded. -/
structure Step.IsGrounded (supplied : Step.Place → String → Prop) (resolves : Target → Prop)
    (s : Step) : Prop where
  name : Grounded (supplied .name) resolves s.name
  condition : ∀ text, s.condition = some text → Grounded (supplied .condition) resolves text
  action : ∀ text, s.uses = some text → Grounded (supplied .action) resolves text
  inputs : ∀ e ∈ s.inputs, Grounded (supplied (.input e.1)) resolves e.2
  env : ∀ e ∈ s.env, Grounded (supplied (.variable e.1)) resolves e.2
  run : ∀ text, s.run = some text → Grounded (supplied .run) resolves text

theorem Step.IsGrounded.mono {supplied supplied' : Step.Place → String → Prop}
    {resolves resolves' : Target → Prop} {s : Step} (h : s.IsGrounded supplied resolves)
    (hsupplied : ∀ place text, supplied place text → supplied' place text)
    (hresolves : ∀ t, resolves t → resolves' t) : s.IsGrounded supplied' resolves' where
  name := h.name.mono (hsupplied _) hresolves
  condition text htext := (h.condition text htext).mono (hsupplied _) hresolves
  action text htext := (h.action text htext).mono (hsupplied _) hresolves
  inputs e he := (h.inputs e he).mono (hsupplied _) hresolves
  env e he := (h.env e he).mono (hsupplied _) hresolves
  run text htext := (h.run text htext).mono (hsupplied _) hresolves

/-- The texts of a step besides the reference to its action. -/
def Step.texts (s : Step) : List String :=
  s.name ::
    (s.condition.toList ++ s.inputs.map (·.2) ++ s.env.map (·.2) ++ s.run.toList)

/-- A step whose texts have too few points to name anything, except maybe its action. -/
theorem Step.isGrounded_of_texts {supplied : Step.Place → String → Prop}
    {resolves : Target → Prop} {s : Step} (htexts : ∀ text ∈ s.texts, text.toList.count '.' ≤ 1)
    (haction : ∀ text, s.uses = some text → Grounded (supplied .action) resolves text) :
    s.IsGrounded supplied resolves where
  name := .of_count (htexts _ List.mem_cons_self)
  condition text htext := .of_count (htexts text (by simp [texts, htext]))
  action := haction
  inputs e he := .of_count (htexts e.2 (by simp [texts, List.mem_map_of_mem he]))
  env e he := .of_count (htexts e.2 (by simp [texts, List.mem_map_of_mem he]))
  run text htext := .of_count (htexts text (by simp [texts, htext]))

/-! ### Jobs -/

namespace Job

/-- The places of a job at which texts may be supplied. -/
inductive Place where
  | runner | condition | environment
  | variable (key : String)
  | step (s : Step) (place : Step.Place)

/-- **Grounded jobs.** All references in the texts of the job resolve when they are evaluated,
unless they are supplied from elsewhere. -/
structure IsGrounded (supplied : Place → String → Prop) (graph : JobGraph) (job : Job) : Prop where
  runner : Grounded (supplied .runner) (Target.Resolves graph job.needs []) job.runsOn
  condition : ∀ text, job.condition = some text →
    Grounded (supplied .condition) (Target.Resolves graph job.needs []) text
  environment : ∀ text, job.environment = some text →
    Grounded (supplied .environment) (Target.Resolves graph job.needs []) text
  env : ∀ e ∈ job.env.entries,
    Grounded (supplied (.variable e.1)) (Target.Resolves graph job.needs []) e.2
  outputs : ∀ value ∈ job.outputs.values, ∀ t ∈ targets value,
    t.Resolves graph job.needs job.steps
  steps : ∀ before s after, job.steps = before ++ .generated s :: after →
    s.IsGrounded (fun place => supplied (.step s place)) (Target.Resolves graph job.needs before)
  /-- there are no other texts -/
  rest : job.displayName = none ∧ job.concurrency = none ∧ job.extra = .empty

/-- A step that is put to the end is found by its identifier. -/
theorem exists_step (job : Job) {s : Step} {id : String} (hid : s.id = some id) :
    ∃ s', .generated s' ∈ (job.step s).steps ∧ s'.id = some id :=
  ⟨s, List.mem_append_right _ (List.mem_singleton_self _), hid⟩

namespace IsGrounded

variable {supplied : Place → String → Prop} {graph : JobGraph} {job : Job}

/-- Steps at the end that are grounded behind those of the job. -/
theorem addSteps (h : job.IsGrounded supplied graph) {steps : List JobStep}
    (hsteps : ∀ s, .generated s ∈ steps → s.IsGrounded (fun place => supplied (.step s place))
      (Target.Resolves graph job.needs job.steps)) :
    (job.addSteps steps).IsGrounded supplied graph where
  runner := h.runner
  condition := h.condition
  environment := h.environment
  env := h.env
  outputs value hvalue t ht :=
    (h.outputs value hvalue t ht).mono (List.subset_append_left job.steps steps)
  steps before s after hsplit := by
    rcases List.append_eq_append_iff.mp hsplit with ⟨more, hbefore, hrest⟩ | ⟨more, hjob, hrest⟩
    -- the step is one of those at the end
    · refine (hsteps s (by simp [hrest])).mono (fun _ _ => id) fun t ht => ht.mono ?_
      rw [hbefore]
      exact List.subset_append_left job.steps more
    · cases more with
      | nil =>
          rw [List.nil_append] at hrest
          refine (hsteps s (by simp [← hrest])).mono (fun _ _ => id) fun t ht => ht.mono ?_
          rw [hjob, List.append_nil]
          exact List.Subset.refl before
      | cons first more =>
          obtain ⟨rfl, -⟩ := List.cons.inj hrest
          exact h.steps before s more hjob
  rest := h.rest

theorem step (h : job.IsGrounded supplied graph) {s : Step}
    (hs : s.IsGrounded (fun place => supplied (.step s place))
      (Target.Resolves graph job.needs job.steps)) :
    (job.step s).IsGrounded supplied graph :=
  h.addSteps fun _ hmem => JobStep.generated.inj (List.mem_singleton.mp hmem) ▸ hs

theorem output (h : job.IsGrounded supplied graph) {name value : String}
    (hvalue : ∀ t ∈ targets value, t.Resolves graph job.needs job.steps) :
    (job.output name value).IsGrounded supplied graph where
  runner := h.runner
  condition := h.condition
  environment := h.environment
  env := h.env
  outputs v hv t ht := by
    rcases Dictionary.of_mem_values_insert hv with rfl | hv
    · exact hvalue t ht
    · exact h.outputs v hv t ht
  steps := h.steps
  rest := h.rest

end IsGrounded

end Job

end AgentPipeline
