import AgentPipeline.Proofs.Pipeline.Presence

/-!
# Cycles through the activation job

The jobs of the author may ask for each other and for the pre-activation job. The activation
job needs each of them that asks for the pre-activation job, and one that asks for nothing
needs the activation job. So what the jobs ask for may have an order while the pipeline has
none: a job that waits for the pre-activation job comes in front of the activation job, and
if it asks, on a path of any length, for one that asks for nothing, it comes behind the
activation job as well (`Entangled`).

This is the only way in which the edges that are added close a cycle
(`compileFrom_cycleDetected_iff`). Each edge of a pipeline has one of nine reasons
(`Generated.Edge`); the pre-activation job needs nothing, nothing needs the safe outputs job,
and the agent job stands only in front of that. So a cycle runs through the author's jobs and
the activation job.
-/

namespace AgentPipeline.Compiler

open Relation (TransGen ReflTransGen)

variable {c : Compiler} {w : Workflow} {sourceStem : Option String} {ctx : Context}
  {g : Generated} {graph : JobGraph} {name need : String}

/-! ### Edges -/

/-- One of the author's jobs asks for another job. -/
def Declares (customJobs : List CustomJob) (name need : String) : Prop :=
  ∃ custom ∈ customJobs, custom.name = name ∧ need ∈ custom.needs

/-- **Well-declared jobs** ask only for each other and, if there is one, for the
pre-activation job, and none of them comes after itself. -/
structure WellDeclared (customJobs : List CustomJob) (hasPreActivation : Prop) : Prop where
  known : ∀ custom ∈ customJobs, ∀ need ∈ custom.needs,
    (∃ other ∈ customJobs, other.name = need) ∨
      (hasPreActivation ∧ need = Names.preActivationJob)
  acyclic : ∀ name, ¬TransGen (Declares customJobs) name name

/-- A job that waits for the pre-activation job and one that waits for nothing, of which the
first comes after the second. The activation job would have to run between the two. -/
def Entangled (customJobs : List CustomJob) : Prop :=
  ∃ gated ∈ customJobs, ∃ free ∈ customJobs,
    Names.preActivationJob ∈ gated.needs ∧ free.needs = [] ∧
      ReflTransGen (Declares customJobs) gated.name free.name

namespace Generates

/-- Each need has one of the reasons. -/
theorem edge_of_needs (hg : c.Generates ctx g) (hgraph : assemble ctx g = .ok graph)
    (h : graph.Needs name need) : g.Edge name need := by
  obtain ⟨job, hjob, rfl, hneed⟩ := JobGraph.needs_iff.mp h
  exact hg.edge_of_origin ((mem_members_of_assemble hgraph).mp hjob) hneed

/-- All needed jobs exist. -/
theorem closed (hg : c.Generates ctx g) (hgraph : assemble ctx g = .ok graph)
    (hdeclared : WellDeclared g.customJobs (g.preActivation.isSome = true)) :
    graph.Closed := by
  have hmem : ∀ {job}, g.Origin ctx job → job.name ∈ graph.names := fun h =>
    JobGraph.mem_names.mpr ⟨_, (mem_members_of_assemble hgraph).mpr h, rfl⟩
  have hcustom : ∀ {custom}, custom ∈ g.customJobs → custom.name ∈ graph.names := fun h => by
    obtain ⟨job, hjob, hname, -⟩ := exists_custom hgraph h
    exact JobGraph.mem_names.mpr ⟨job, hjob, hname⟩
  have hpre : g.preActivation.isSome = true → Names.preActivationJob ∈ graph.names := fun h => by
    obtain ⟨pre, hpre⟩ := Option.isSome_iff_exists.mp h
    exact (hg.preActivation_place hpre).1 ▸ hmem (.preActivation hpre)
  have hactivation : g.activation.job.isSome = true → Names.activationJob ∈ graph.names :=
    fun h => by
      obtain ⟨job, hjob⟩ := Option.isSome_iff_exists.mp h
      exact (hg.activation_place hjob).1 ▸ hmem (.activation hjob)
  intro name need hneeds
  cases hg.edge_of_needs hgraph hneeds with
  | gate h | agentPre h => exact hpre h
  | gated _ h _ | agentCustom h => exact hcustom h
  | declared h hneed =>
      rcases hdeclared.known _ h _ hneed with ⟨other, hother, rfl⟩ | ⟨hsome, rfl⟩
      · exact hcustom hother
      · exact hpre hsome
  | free h _ _ | agent h | outputsActivation h => exact hactivation h
  | outputs => exact hg.agent_place.1 ▸ hmem .agent

/-- What the author declares becomes an edge of the graph. -/
theorem needs_of_declares (hgraph : assemble ctx g = .ok graph)
    (h : Declares g.customJobs name need) : graph.Needs name need := by
  obtain ⟨custom, hcustom, rfl, hneed⟩ := h
  obtain ⟨job, hjob, hname, hneeds⟩ := exists_custom hgraph hcustom
  refine JobGraph.needs_iff.mpr ⟨job, hjob, hname, ?_⟩
  rw [hneeds, CustomJob.effectiveNeeds]
  split
  · next hfree =>
    rw [Bool.and_eq_true, List.isEmpty_iff] at hfree
    rw [hfree.1] at hneed
    cases hneed
  · exact hneed

/-- If the jobs are entangled, the activation job comes after itself. -/
theorem not_acyclic (hg : c.Generates ctx g) (hgraph : assemble ctx g = .ok graph)
    (hpre : g.preActivation.isSome = true) (h : Entangled g.customJobs) : ¬graph.Acyclic := by
  obtain ⟨gated, hgated, free, hfree, hneed, hnone, hpath⟩ := h
  obtain ⟨activation, hactivation⟩ := Option.isSome_iff_exists.mp (hg.activation_isSome hpre)
  have hfirst : graph.Needs Names.activationJob gated.name := by
    obtain ⟨hname, hneeds⟩ := hg.activation_place hactivation
    refine JobGraph.needs_iff.mpr
      ⟨activation, (mem_members_of_assemble hgraph).mpr (.activation hactivation), hname, ?_⟩
    rw [hneeds]
    exact Activation.mem_needs.mpr ⟨hpre, .inr ⟨gated, hgated, hneed, rfl⟩⟩
  have hlast : graph.Needs free.name Names.activationJob := by
    obtain ⟨job, hjob, hname, hneeds⟩ := exists_custom hgraph hfree
    refine JobGraph.needs_iff.mpr ⟨job, hjob, hname, ?_⟩
    rw [hneeds, CustomJob.effectiveNeeds, hnone, hactivation]
    exact List.mem_singleton_self _
  have hbetween : ReflTransGen graph.Needs gated.name free.name :=
    hpath.lift id fun _ _ => needs_of_declares hgraph
  exact fun hacyclic => hacyclic _ (.head' hfirst (hbetween.tail hlast))

end Generates

/-! ### Paths -/

namespace Generated

variable {g : Generated} {x y z : String}

/-- The names of the generated jobs are not taken. -/
def Reserved (g : Generated) : Prop :=
  ∀ custom ∈ g.customJobs, custom.name ∉ Names.reservedJobs

namespace Edge

/-- What the author declares is one of the reasons for an edge. -/
theorem of_declares (h : Declares g.customJobs x y) : g.Edge x y := by
  obtain ⟨custom, hcustom, rfl, hneed⟩ := h
  exact .declared hcustom hneed

/-- The pre-activation job needs nothing. -/
theorem source_ne (hreserved : g.Reserved) (h : g.Edge x y) : x ≠ Names.preActivationJob := by
  cases h with
  | declared hcustom | free _ hcustom =>
      exact fun hname => hreserved _ hcustom (hname ▸ by decide)
  | _ => decide

/-- Nothing needs the safe outputs job. -/
theorem target_ne (hreserved : g.Reserved)
    (hdeclared : WellDeclared g.customJobs (g.preActivation.isSome = true)) (h : g.Edge x y) :
    y ≠ Names.safeOutputsJob := by
  cases h with
  | gated _ hcustom _ | agentCustom hcustom =>
      exact fun hname => hreserved _ hcustom (hname ▸ by decide)
  | declared hcustom hneed =>
      rcases hdeclared.known _ hcustom _ hneed with ⟨other, hother, rfl⟩ | ⟨-, rfl⟩
      · exact fun hname => hreserved _ hother (hname ▸ by decide)
      · decide
  | _ => decide

/-- Only the safe outputs job needs the agent job. -/
theorem source_eq_of_agent (hreserved : g.Reserved)
    (hdeclared : WellDeclared g.customJobs (g.preActivation.isSome = true))
    (h : g.Edge x Names.agentJob) : x = Names.safeOutputsJob := by
  generalize hy : Names.agentJob = y at h
  cases h with
  | outputs => rfl
  | gated _ hcustom _ | agentCustom hcustom =>
      exact absurd (hy ▸ by decide) (hreserved _ hcustom)
  | declared hcustom hneed =>
      rcases hdeclared.known _ hcustom _ hneed with ⟨other, hother, rfl⟩ | ⟨-, rfl⟩
      · exact absurd (hy ▸ by decide) (hreserved _ hother)
      · exact absurd hy (by decide)
  | _ => exact absurd hy (by decide)

/-- The activation job needs the pre-activation job and what waits for that too. -/
theorem of_activation (hreserved : g.Reserved) (h : g.Edge Names.activationJob y) :
    y = Names.preActivationJob ∨
      ∃ gated ∈ g.customJobs, Names.preActivationJob ∈ gated.needs ∧ gated.name = y := by
  generalize hx : Names.activationJob = x at h
  cases h with
  | gate => exact .inl rfl
  | gated _ hcustom hneed => exact .inr ⟨_, hcustom, hneed, rfl⟩
  | declared hcustom | free _ hcustom => exact absurd (hx ▸ by decide) (hreserved _ hcustom)
  | _ => exact absurd hx (by decide)

/-- A job of the author needs what it asks for, or the activation job if it asks for
nothing. -/
theorem of_custom (hreserved : g.Reserved) {custom : CustomJob} (hcustom : custom ∈ g.customJobs)
    (h : g.Edge custom.name y) :
    Declares g.customJobs custom.name y ∨
      ∃ free ∈ g.customJobs, free.needs = [] ∧ free.name = custom.name ∧
        y = Names.activationJob := by
  generalize hx : custom.name = x at h
  have hname : x ∉ Names.reservedJobs := hx ▸ hreserved custom hcustom
  cases h with
  | declared hmem hneed => exact .inl ⟨_, hmem, rfl, hneed⟩
  | free _ hmem hnone => exact .inr ⟨_, hmem, hnone, rfl, rfl⟩
  | _ => exact absurd (by decide) hname

end Edge

/-- Nothing comes in front of the pre-activation job. -/
theorem eq_of_preActivation (hreserved : g.Reserved)
    (h : ReflTransGen g.Edge Names.preActivationJob y) : y = Names.preActivationJob := by
  rcases ReflTransGen.cases_head h with rfl | ⟨z, hedge, -⟩
  · rfl
  · exact absurd rfl (hedge.source_ne hreserved)

/-- **Paths from a job of the author** follow what the jobs ask for, up to one that asks for
nothing and needs the activation job. -/
theorem path_cases (hreserved : g.Reserved)
    (hdeclared : WellDeclared g.customJobs (g.preActivation.isSome = true))
    (h : ReflTransGen g.Edge x y) (hx : ∃ custom ∈ g.customJobs, custom.name = x) :
    ReflTransGen (Declares g.customJobs) x y ∨
      ∃ free ∈ g.customJobs, free.needs = [] ∧
        ReflTransGen (Declares g.customJobs) x free.name ∧
        g.Edge free.name Names.activationJob ∧ ReflTransGen g.Edge Names.activationJob y := by
  induction h using ReflTransGen.head_induction_on with
  | refl => exact .inl .refl
  | @head x z hedge hpath ih =>
      obtain ⟨custom, hcustom, rfl⟩ := hx
      rcases hedge.of_custom hreserved hcustom with hneed | ⟨free, hfree, hnone, hname, rfl⟩
      · obtain ⟨_, hother, -, hknown⟩ := id hneed
        rcases hdeclared.known _ hother _ hknown with hz | ⟨-, rfl⟩
        · rcases ih hz with hrest | ⟨free, hfree, hnone, hrest, hlast, hback⟩
          · exact .inl (.head hneed hrest)
          · exact .inr ⟨free, hfree, hnone, .head hneed hrest, hlast, hback⟩
        · exact .inl (eq_of_preActivation hreserved hpath ▸ .single hneed)
      · exact .inr ⟨free, hfree, hnone, hname ▸ .refl, hname ▸ hedge, hpath⟩

/-- A cycle through the activation job goes on to a job that waits for the pre-activation
job, and comes back from one that waits for nothing. -/
theorem entangled_of_activation (hreserved : g.Reserved)
    (hdeclared : WellDeclared g.customJobs (g.preActivation.isSome = true))
    (h : TransGen g.Edge Names.activationJob Names.activationJob) : Entangled g.customJobs := by
  obtain ⟨z, hedge, hpath⟩ := TransGen.head'_iff.mp h
  rcases hedge.of_activation hreserved with rfl | ⟨gated, hgated, hneed, rfl⟩
  · exact absurd (eq_of_preActivation hreserved hpath) (by decide)
  rcases path_cases hreserved hdeclared hpath ⟨gated, hgated, rfl⟩ with
    hdeclares | ⟨free, hfree, hnone, hbetween, -, -⟩
  · -- nobody asks for the activation job
    exfalso
    rcases ReflTransGen.cases_tail hdeclares with hname | ⟨_, -, custom, hcustom, -, hasks⟩
    · exact hreserved gated hgated (hname ▸ by decide)
    · rcases hdeclared.known _ hcustom _ hasks with ⟨other, hother, hname⟩ | ⟨-, hname⟩
      · exact hreserved other hother (hname ▸ by decide)
      · exact absurd hname (by decide)
  · exact ⟨gated, hgated, free, hfree, hneed, hnone, hbetween⟩

/-- **Cycles.** If a job comes after itself, then the author's jobs are entangled. -/
theorem entangled_of_cycle (hreserved : g.Reserved)
    (hdeclared : WellDeclared g.customJobs (g.preActivation.isSome = true))
    (h : TransGen g.Edge x x) : Entangled g.customJobs := by
  obtain ⟨z, hedge, hpath⟩ := TransGen.head'_iff.mp h
  obtain ⟨last, hfront, hback⟩ := TransGen.tail'_iff.mp h
  have hactivation := entangled_of_activation hreserved hdeclared
  cases hedge with
  | gate | gated => exact hactivation h
  | @declared custom _ hcustom hneed =>
      rcases hdeclared.known _ hcustom _ hneed with hother | ⟨-, rfl⟩
      · rcases path_cases hreserved hdeclared hpath hother with
          hdeclares | ⟨free, hfree, hnone, hbetween, hlast, hagain⟩
        · exact absurd (.head' ⟨custom, hcustom, rfl, hneed⟩ hdeclares) (hdeclared.acyclic _)
        · have hpath : ReflTransGen g.Edge z free.name := hbetween.lift id fun _ _ => .of_declares
          exact hactivation (.tail' ((hagain.tail (.declared hcustom hneed)).trans hpath) hlast)
      · exact absurd (eq_of_preActivation hreserved hpath ▸ by decide) (hreserved custom hcustom)
  | free hsome hcustom hnone => exact hactivation (.tail' hpath (.free hsome hcustom hnone))
  | agent | agentPre | agentCustom =>
      -- only the safe outputs job is behind the agent job, and nothing behind that
      exfalso
      obtain rfl := hback.source_eq_of_agent hreserved hdeclared
      rcases ReflTransGen.cases_tail hfront with hname | ⟨_, -, hedge⟩
      · exact absurd hname (by decide)
      · exact hedge.target_ne hreserved hdeclared rfl
  | outputs | outputsActivation => exact absurd rfl (hback.target_ne hreserved hdeclared)

end Generated

/-! ### The compilation -/

/-- **When a cycle is reported.** If the author's jobs are well declared, then a compilation
ends at a cycle exactly if its jobs can be generated and put together, and a job that waits
for the pre-activation job comes after one that waits for nothing. -/
theorem compileFrom_cycleDetected_iff {customJobs : List CustomJob}
    (hcustomJobs : w.customJobs = .ok customJobs)
    (hdeclared : WellDeclared customJobs
      (∃ pre, PreActivation.build (c.context w sourceStem) = .ok (some pre))) :
    (∃ name, c.compileFrom w sourceStem = .error (.graph (.cycleDetected name))) ↔
      (∃ g graph, c.Generates (c.context w sourceStem) g ∧
        assemble (c.context w sourceStem) g = .ok graph) ∧ Entangled customJobs := by
  have hpre : ∀ {g : Generated}, c.Generates (c.context w sourceStem) g →
      ((∃ pre, PreActivation.build (c.context w sourceStem) = .ok (some pre)) ↔
        g.preActivation.isSome = true) := fun hg => by
    rw [hg.preActivation, Option.isSome_iff_exists]
    exact exists_congr fun pre => by rw [Except.ok.injEq]
  rw [compileFrom_eq_cycleDetected_iff]
  constructor
  · rintro ⟨g, graph, hg, hgraph, -, hcycle⟩
    obtain rfl : g.customJobs = customJobs := Except.ok.inj (hg.customJobs.symm.trans hcustomJobs)
    rw [hpre hg] at hdeclared
    refine ⟨⟨g, graph, hg, hgraph⟩, ?_⟩
    by_contra hfree
    refine hcycle fun name h => hfree ?_
    have hedges : TransGen g.Edge name name := h.lift id fun _ _ => hg.edge_of_needs hgraph
    exact Generated.entangled_of_cycle (fun _ => hg.name_notMem) hdeclared hedges
  · rintro ⟨⟨g, graph, hg, hgraph⟩, hentangled⟩
    obtain rfl : g.customJobs = customJobs := Except.ok.inj (hg.customJobs.symm.trans hcustomJobs)
    rw [hpre hg] at hdeclared
    have hsome : g.preActivation.isSome = true := by
      obtain ⟨gated, hgated, -, -, hneed, -⟩ := hentangled
      rcases hdeclared.known gated hgated _ hneed with ⟨other, hother, hname⟩ | ⟨hsome, -⟩
      · exact absurd (hname ▸ by decide) (hg.name_notMem hother)
      · exact hsome
    exact ⟨g, graph, hg, hgraph, hg.closed hgraph hdeclared,
      hg.not_acyclic hgraph hsome hentangled⟩

/-- Two entangled jobs: the first one asks for nothing. -/
def entangledJobs : List CustomJob :=
  [⟨"free", [], [(.string "steps", .sequence [])]⟩,
    ⟨"gated", [Names.preActivationJob, "free"],
      [(.string "needs", .sequence [.string Names.preActivationJob, .string "free"]),
        (.string "steps", .sequence [])]⟩]

/-- A workflow with these jobs. Its event makes a pre-activation job necessary. -/
def entangling : Workflow :=
  { Workflow.named "plan" with
    triggers := .ofList [("issues", .null)]
    jobs := .ofList (entangledJobs.map fun custom => (custom.name, .mapping custom.definition)) }

/-- The jobs of the entangled workflow are declared well. -/
theorem wellDeclared_entangledJobs :
    WellDeclared entangledJobs
      (∃ pre, PreActivation.build (running.context entangling none) = .ok (some pre)) := by
  have hgated : ∀ {name need}, Declares entangledJobs name need →
      name = "gated" ∧ need ∈ [Names.preActivationJob, "free"] := by
    rintro name need ⟨custom, hcustom, rfl, hneed⟩
    rcases List.mem_pair.mp hcustom with rfl | rfl
    · cases hneed
    · exact ⟨rfl, hneed⟩
  constructor
  · intro custom hcustom need hneed
    rcases List.mem_pair.mp (hgated ⟨custom, hcustom, rfl, hneed⟩).2 with rfl | rfl
    · exact .inr ⟨⟨_, rfl⟩, rfl⟩
    · exact .inl ⟨_, List.mem_cons_self, rfl⟩
  · intro name hcycle
    obtain ⟨_, hfirst, -⟩ := TransGen.head'_iff.mp hcycle
    obtain ⟨_, -, hlast⟩ := TransGen.tail'_iff.mp hcycle
    obtain rfl := (hgated hfirst).1
    exact absurd (hgated hlast).2 (by decide)

/-- The compilation of the entangled workflow ends at a cycle. -/
theorem compileFrom_cycleDetected_entangling :
    entangling.customJobs = .ok entangledJobs ∧ Entangled entangledJobs :=
  ⟨rfl, ((compileFrom_cycleDetected_iff rfl wellDeclared_entangledJobs).mp ⟨_, rfl⟩).2⟩

/-- **The default need closes a cycle**: jobs that are well declared need not have an order
together with the generated ones. -/
theorem exists_cycleDetected_of_wellDeclared :
    ∃ w customJobs, w.customJobs = .ok customJobs ∧
      WellDeclared customJobs
        (∃ pre, PreActivation.build (running.context w none) = .ok (some pre)) ∧
      running.compileFrom w none = .error (.graph (.cycleDetected "gated")) :=
  ⟨entangling, entangledJobs, rfl, wellDeclared_entangledJobs, rfl⟩

end AgentPipeline.Compiler
