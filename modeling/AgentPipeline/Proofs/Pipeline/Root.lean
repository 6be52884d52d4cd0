import AgentPipeline.Proofs.Pipeline.Validity

/-!
# The root of a pipeline

The jobs of a pipeline with an activation job start at one **root**, the only job that needs
nothing: the pre-activation job if there is one, and otherwise the activation job. Every
other job comes after the root (`exists_root_of_compileFrom`), so nothing runs around the
checks that the root makes.
-/

namespace AgentPipeline.Compiler

open Relation (TransGen)

variable {c : Compiler} {w : Workflow} {sourceStem : Option String} {ctx : Context}
  {g : Generated} {graph : JobGraph} {job : Job}

namespace Generates

/-- If there is an activation job, only the first control job needs nothing. -/
theorem needs_eq_nil_iff (hg : c.Generates ctx g) (h : g.Origin ctx job)
    (hactivation : g.activation.job.isSome = true) :
    job.needs = [] ↔ (∃ pre, g.preActivation = some pre ∧ pre.job = job) ∨
      (g.preActivation = none ∧ g.activation.job = some job) := by
  have hfirst : ∀ {job}, g.activation.job = some job →
      (job.needs = [] ↔ g.preActivation = none) := fun hjob => by
    rw [(hg.activation_place hjob).2, Activation.needs_eq_nil_iff, Option.isSome_eq_false_iff,
      Option.isNone_iff_eq_none]
  constructor
  · intro hneeds
    cases h with
    | preActivation hpre => exact .inl ⟨_, hpre, rfl⟩
    | activation hjob => exact .inr ⟨(hfirst hjob).mp hneeds, hjob⟩
    | agent =>
        have hmem : Names.activationJob ∈ g.agent.needs :=
          hg.agent_place.2 ▸ Agent.mem_needs.mpr (.inl ⟨hactivation, rfl⟩)
        exact absurd hneeds (List.ne_nil_of_mem hmem)
    | custom hcustom hjob =>
        exact absurd hneeds ((hg.custom_place hcustom hjob).2 hactivation)
    | safeOutputs hjob =>
        rw [(hg.safeOutputs_place hjob).2] at hneeds
        cases hneeds
  · rintro (⟨pre, hpre, rfl⟩ | ⟨hnone, hjob⟩)
    · exact (hg.preActivation_place hpre).2
    · exact (hfirst hjob).mpr hnone

/-- If there is an activation job, one of the control jobs is the root. -/
theorem exists_root (hg : c.Generates ctx g) (hactivation : g.activation.job.isSome = true) :
    ∃ root, g.Origin ctx root ∧
      root.name =
        (if g.preActivation.isSome then Names.preActivationJob else Names.activationJob) ∧
      ∀ job, g.Origin ctx job → (job.needs = [] ↔ job = root) := by
  obtain ⟨activation, hsome⟩ := Option.isSome_iff_exists.mp hactivation
  cases hpre : g.preActivation with
  | none =>
      refine ⟨activation, .activation hsome, (hg.activation_place hsome).1, fun job h => ?_⟩
      rw [hg.needs_eq_nil_iff h hactivation, hpre, hsome]
      simp [eq_comm]
  | some pre =>
      refine ⟨pre.job, .preActivation hpre, (hg.preActivation_place hpre).1, fun job h => ?_⟩
      rw [hg.needs_eq_nil_iff h hactivation, hpre]
      simp [eq_comm]

end Generates

/-- **The root of a pipeline.** If there is an activation job, exactly one job needs nothing:
the pre-activation job, or the activation job if there is no other one. All other jobs come
after it. -/
theorem exists_root_of_compileFrom {p : Pipeline} (h : c.compileFrom w sourceStem = .ok p)
    (hactivation : p.jobs.has Names.activationJob = true) :
    ∃ root ∈ p.jobs.members,
      root.name =
        (if p.jobs.has Names.preActivationJob then Names.preActivationJob
        else Names.activationJob) ∧
      (∀ job ∈ p.jobs.members, job.needs = [] ↔ job = root) ∧
      ∀ job ∈ p.jobs.members, job ≠ root → TransGen p.jobs.Needs job.name root.name := by
  obtain ⟨g, hg, hgraph, hvalid, -⟩ := compileFrom_eq_ok_iff.mp h
  rw [has_eq_isSome hgraph fun job => hg.origin_activation_iff] at hactivation
  rw [has_eq_isSome hgraph fun job => hg.origin_preActivation_iff, Option.isSome_map]
  obtain ⟨root, hroot, hname, hneeds⟩ := hg.exists_root hactivation
  have honly : ∀ job ∈ p.jobs.members, job.needs = [] ↔ job = root :=
    fun job hjob => hneeds job ((mem_members_of_assemble hgraph).mp hjob)
  obtain ⟨hclosed, hacyclic, -⟩ := JobGraph.validate_eq_ok_iff.mp hvalid
  obtain ⟨names, horder⟩ := JobGraph.exists_order hclosed hacyclic
  exact ⟨root, (mem_members_of_assemble hgraph).mpr hroot, hname, honly,
    (JobGraph.order_eq_ok horder).transGen_root fun job hjob => (honly job hjob).mp⟩

/-- A workflow that locks is compiled, and all its jobs come after one. -/
theorem exists_root_locking :
    ∃ p, (pinning true).compileFrom (locking none) (some "triage") = .ok p ∧
      p.jobs.has Names.activationJob = true ∧
      ∃ root ∈ p.jobs.members,
        root.name =
          (if p.jobs.has Names.preActivationJob then Names.preActivationJob
          else Names.activationJob) ∧
        (∀ job ∈ p.jobs.members, job.needs = [] ↔ job = root) ∧
        ∀ job ∈ p.jobs.members, job ≠ root →
          TransGen p.jobs.Needs job.name root.name := by
  obtain ⟨p, hp, hactivation⟩ := exists_compileFrom_locking true none (.inr rfl)
  exact ⟨p, hp, hactivation, exists_root_of_compileFrom hp hactivation⟩

end AgentPipeline.Compiler
