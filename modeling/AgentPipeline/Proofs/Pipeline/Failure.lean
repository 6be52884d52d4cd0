import AgentPipeline.Proofs.Job.Cycle
import AgentPipeline.Proofs.Pipeline.Assembly

/-!
# Where errors come from

Each stage of a compilation has errors of its own. What generates the jobs knows nothing of
the graph (`generate_failsWith`), what puts them together only minds names that are taken
(`assemble_failsWith`), and so a cycle is reported by the validation only, for a graph in
which all needed jobs exist (`compileFrom_eq_cycleDetected_iff`).
-/

namespace AgentPipeline

/-- The error is not about the job graph. -/
def CompileError.OffGraph (e : CompileError) : Prop := ∀ e', e ≠ .graph e'

open CompileError (OffGraph)

/-- Errors in the settings are not about the graph. -/
theorem config_failsWith {α : Type} (x : Except ConfigError α) :
    FailsWith OffGraph (x.mapError .config) :=
  .mapError fun _ _ => nofun

/-- An action without a commit is no error about the graph. -/
theorem Resolver.resolve_failsWith (r : Resolver) (repo version : String) :
    FailsWith OffGraph (r.resolve repo version) := by
  unfold resolve
  split
  · exact .ok _
  · split
    · exact .ok _
    · exact .ite (.error nofun) (.ok _)

/-- So are the actions of the generated steps. -/
theorem Context.pin_failsWith (ctx : Context) (action : String × String) :
    FailsWith OffGraph (ctx.pin action) :=
  ctx.resolver.resolve_failsWith action.1 action.2

/-- The pre-activation job is built without a look at the graph. -/
theorem PreActivation.build_failsWith (ctx : Context) : FailsWith OffGraph (build ctx) := by
  rw [build_eq]
  refine .bind (.optionMapM fun _ => config_failsWith _) fun deadline => .ite (.ok _) ?_
  exact .bind (ctx.pin_failsWith _) fun _ => .ok _

/-- The activation job is built without a look at the graph. -/
theorem Activation.build_failsWith (ctx : Context) (pre : Option PreActivation)
    (customJobs : List CustomJob) : FailsWith OffGraph (build ctx pre customJobs) := by
  rw [build_eq]
  refine .bind (.optionMapM fun _ => .mapError fun _ _ => nofun) fun user => .ite (.ok _) ?_
  exact .bind (ctx.pin_failsWith _) fun _ => .ok _

namespace Agent

/-- The permissions of the agent are settings. -/
theorem permissions_failsWith (ctx : Context) : FailsWith OffGraph (permissions ctx) := by
  simp only [permissions]
  split
  · exact .error nofun
  · exact .ok _

/-- The agent job is built without a look at the graph. -/
theorem build_failsWith (ctx : Context) (activation : Activation) (customJobs : List CustomJob)
    (hasPreActivation : Bool) (engineSteps : List Step) :
    FailsWith OffGraph (build ctx activation customJobs hasPreActivation engineSteps) := by
  refine .bind (permissions_failsWith ctx) fun permissions => ?_
  refine .bind (ctx.pin_failsWith _) fun checkoutAction => ?_
  cases ctx.workflow.outputs with
  | none => exact .ok _
  | some s => exact .bind (ctx.pin_failsWith _) fun _ => .bind (ctx.pin_failsWith _) fun _ => .ok _

end Agent

namespace Dispatch

/-- The safe outputs job is built without a look at the graph. -/
theorem build_failsWith (ctx : Context) (hasActivation : Bool) :
    FailsWith OffGraph (build ctx hasActivation) := by
  unfold build
  cases ctx.workflow.outputs with
  | none => exact .ok _
  | some s =>
      refine .map ?_
      rw [ofSettings_eq]
      refine .bind (ctx.pin_failsWith _) fun downloadAction => ?_
      refine .bind (.ite (.ok _) ?_) fun job => ?_
      · exact .bind (ctx.pin_failsWith _) fun _ => .bind (ctx.pin_failsWith _) fun _ => .ok _
      refine .bind (.ite (.ok _) ?_) fun job => ?_
      · exact .bind (ctx.pin_failsWith _) fun _ => .bind (config_failsWith _) fun _ => .ok _
      refine .bind (.ite (.ok _) ?_) fun job => ?_
      · exact .bind (ctx.pin_failsWith _) fun _ => .ok _
      exact .foldlM fun _ _ => .bind (ctx.pin_failsWith _) fun _ => .ok _

end Dispatch

namespace Compiler

variable {c : Compiler} {w : Workflow} {sourceStem : Option String} {ctx : Context}
  {g : Generated} {graph : JobGraph} {job : Job}

/-- What is generated is not put together yet. -/
theorem generate_failsWith (c : Compiler) (ctx : Context) :
    FailsWith OffGraph (c.generate ctx) := by
  refine .bind (config_failsWith _) fun customJobs => ?_
  refine .bind (PreActivation.build_failsWith ctx) fun preActivation => ?_
  refine .bind (Activation.build_failsWith ctx preActivation customJobs) fun activation => ?_
  refine .bind (Agent.build_failsWith ctx activation customJobs _ _) fun agent => ?_
  exact .bind (Dispatch.build_failsWith ctx _) fun safeOutputs => .ok _

/-- Only names that are taken keep jobs out of the graph. -/
theorem assemble_failsWith (ctx : Context) (g : Generated) :
    FailsWith (fun e => ∀ name, e ≠ .graph (.cycleDetected name)) (assemble ctx g) := by
  have hadd : ∀ (graph : JobGraph) (job : Job),
      FailsWith (fun e => ∀ name, e ≠ .graph (.cycleDetected name))
        ((graph.add job).mapError CompileError.graph) := fun graph job =>
    .mapError fun e he name heq => graph.add_failsWith job e he ⟨name, CompileError.graph.inj heq⟩
  have haddAll : ∀ (graph : JobGraph) (jobs : List Job),
      FailsWith (fun e => ∀ name, e ≠ .graph (.cycleDetected name))
        ((graph.addAll jobs).mapError CompileError.graph) := fun graph jobs =>
    .mapError fun e he name heq =>
      FailsWith.foldlM (fun graph job => graph.add_failsWith job) e he
        ⟨name, CompileError.graph.inj heq⟩
  refine .bind (haddAll _ _) fun graph => ?_
  refine .bind (.foldlM fun graph custom => ?_) fun graph => haddAll _ _
  exact .bind (.mapError fun _ _ _ => nofun) fun job => hadd graph job

/-- **Where a cycle is reported**: the stages before the validation succeed, and the
validation reports it. -/
theorem compileFrom_eq_cycleDetected_iff :
    (∃ name, c.compileFrom w sourceStem = .error (.graph (.cycleDetected name))) ↔
      ∃ g graph, c.Generates (c.context w sourceStem) g ∧
        assemble (c.context w sourceStem) g = .ok graph ∧ graph.Closed ∧ ¬graph.Acyclic := by
  have heq : c.compileFrom w sourceStem =
      c.generate (c.context w sourceStem) >>= fun g =>
        assemble (c.context w sourceStem) g >>= fun graph =>
          graph.validate.mapError .graph >>= fun _ =>
            pure ⟨w.name, w.triggers, w.concurrency, graph⟩ := rfl
  rw [heq]
  constructor
  · rintro ⟨name, herror⟩
    -- generating and assembling have other errors, so the cycle is found by the validation
    cases hg : c.generate (c.context w sourceStem) with
    | error e =>
        rw [hg] at herror
        exact absurd (Except.error.inj herror) (generate_failsWith c _ e hg _)
    | ok g =>
        rw [hg, ok_bind] at herror
        cases hgraph : assemble (c.context w sourceStem) g with
        | error e =>
            rw [hgraph] at herror
            exact absurd (Except.error.inj herror) (assemble_failsWith _ g e hgraph name)
        | ok graph =>
            rw [hgraph, ok_bind] at herror
            cases hvalid : graph.validate with
            | ok _ =>
                rw [hvalid] at herror
                cases herror
            | error e =>
                rw [hvalid] at herror
                obtain rfl := CompileError.graph.inj (Except.error.inj herror)
                exact ⟨g, graph, generate_eq_ok_iff.mp hg, hgraph,
                  JobGraph.validate_eq_cycleDetected_iff.mp ⟨name, hvalid⟩⟩
  · rintro ⟨g, graph, hg, hgraph, hcycle⟩
    obtain ⟨name, hvalid⟩ := JobGraph.validate_eq_cycleDetected_iff.mpr hcycle
    exact ⟨name, by rw [generate_eq_ok_iff.mpr hg, ok_bind, hgraph, ok_bind, hvalid]; rfl⟩

end Compiler

end AgentPipeline
