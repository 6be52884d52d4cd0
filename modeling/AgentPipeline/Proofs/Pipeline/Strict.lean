import AgentPipeline.Proofs.Pipeline.Validity

/-!
# Strict mode

Strict mode turns three things that are tolerated otherwise into errors: an action without
a known commit, write access of the agent, and a project handler without a token of its own.
It changes nothing else. A strict compilation either goes the way of the lenient one or ends
at one of these errors (`Filters`), stage by stage, and so what it lets pass is what the
lenient one gives (`compileFrom_strict`).
-/

namespace AgentPipeline

/-- **The errors of strict mode.** -/
inductive CompileError.StrictOnly : CompileError → Prop
  | unpinnedAction (repo version : String) : StrictOnly (.unpinnedAction repo version)
  | writePermission (scope : String) :
      StrictOnly (.config (.writePermissionInStrictMode scope))
  | missingProjectToken (kind : String) : StrictOnly (.config (.missingProjectToken kind))

/-- **Filtering.** The first computation gives what the second one gives, unless it ends at
an error of strict mode. -/
def Filters {α : Type} (x y : Except CompileError α) : Prop :=
  x = y ∨ ∃ e, CompileError.StrictOnly e ∧ x = .error e

namespace Filters

variable {α β : Type} {x y : Except CompileError α}

/-- A computation filters itself. -/
theorem refl (x : Except CompileError α) : Filters x x := .inl rfl

/-- An error of strict mode filters any computation. -/
theorem error {e : CompileError} (he : e.StrictOnly) : Filters (.error e) y :=
  .inr ⟨e, he, rfl⟩

/-- A sequence filters if both steps do. -/
theorem bind {f f' : α → Except CompileError β} (h : Filters x y)
    (hf : ∀ a, Filters (f a) (f' a)) : Filters (x >>= f) (y >>= f') := by
  rcases h with rfl | ⟨e, he, rfl⟩
  · cases x with
    | error e => exact refl _
    | ok a => exact hf a
  · exact error he

/-- Filtering is kept when the results are mapped. -/
theorem map {f : α → β} (h : Filters x y) : Filters (f <$> x) (f <$> y) := by
  rcases h with rfl | ⟨e, he, rfl⟩
  · exact refl _
  · exact error he

/-- A part that may be left out is left out on both sides. -/
theorem ite {p : Prop} [Decidable p] {z : Except CompileError α} (h : Filters x y) :
    Filters (if p then z else x) (if p then z else y) := by
  split
  · exact refl _
  · exact h

/-- A loop filters if its steps do. -/
theorem foldlM {f f' : β → α → Except CompileError β} {l : List α} {b : β}
    (hf : ∀ b a, Filters (f b a) (f' b a)) : Filters (l.foldlM f b) (l.foldlM f' b) := by
  induction l generalizing b with
  | nil => exact refl _
  | cons a l ih =>
      rw [List.foldlM_cons, List.foldlM_cons]
      exact (hf b a).bind fun b' => ih

/-- What the filter lets pass is the result of the other computation. -/
theorem ok {a : α} (h : Filters x y) (hx : x = .ok a) : y = .ok a := by
  rcases h with rfl | ⟨e, -, rfl⟩
  · exact hx
  · cases hx

/-- Where only the filter fails, it fails with an error of strict mode. -/
theorem strictOnly {a : α} {e : CompileError} (h : Filters x y) (hy : y = .ok a)
    (hx : x = .error e) : e.StrictOnly := by
  rcases h with rfl | ⟨e', he, rfl⟩
  · exact absurd (hy.symm.trans hx) nofun
  · exact Except.error.inj hx ▸ he

end Filters

/-! ### The places that look at strict mode -/

/-- The context with strict mode in effect. -/
def Context.hardened (ctx : Context) : Context :=
  { ctx with strict := true, resolver := { ctx.resolver with strict := true } }

/-- The hardened context is in strict mode. -/
@[simp] theorem Context.hardened_strict (ctx : Context) : ctx.hardened.strict = true := rfl

/-- Hardening leaves the workflow as it is. -/
@[simp] theorem Context.hardened_workflow (ctx : Context) :
    ctx.hardened.workflow = ctx.workflow := rfl

/-- A strict resolver refuses what is not pinned, and otherwise gives the same reference. -/
theorem Resolver.filters_resolve (r : Resolver) (repo version : String) :
    Filters (resolve { r with strict := true } repo version) (r.resolve repo version) := by
  unfold resolve
  cases r.lookup repo version with
  | some sha => exact .refl _
  | none =>
      cases choose version (r.catalog.filter (·.repo == repo)) with
      | some pin => exact .refl _
      | none => exact .error (.unpinnedAction repo version)

/-- So does the context for the actions of the generated steps. -/
theorem Context.filters_pin (ctx : Context) (action : String × String) :
    Filters (ctx.hardened.pin action) (ctx.pin action) :=
  ctx.resolver.filters_resolve action.1 action.2

/-- In strict mode there is no default for the token of the project handler. -/
theorem SafeOutputs.filters_projectToken (s : SafeOutputs) (strict : Bool) :
    Filters ((s.projectToken true).mapError .config)
      ((s.projectToken strict).mapError .config) := by
  cases strict with
  | true => exact .refl _
  | false =>
      simp only [projectToken]
      cases (s.kindsIn .project).findSome? fun kind => (s.outputs kind).bind (·.githubToken) with
      | some token => exact .refl _
      | none =>
          cases (s.kindsIn .project).head? with
          | some kind => exact .error (.missingProjectToken kind.key)
          | none => exact .refl _

/-- In strict mode the agent may not have write access; its permissions stay the same. -/
theorem Agent.filters_permissions (ctx : Context) :
    Filters (permissions ctx.hardened) (permissions ctx) := by
  simp only [permissions, Context.hardened_strict, Context.hardened_workflow]
  cases ctx.strict with
  | true => exact .refl _
  | false =>
      cases (ctx.workflow.permissions.getD (.shorthand .readAll)).writeScopes with
      | nil => exact .refl _
      | cons scope rest => exact .error (.writePermission scope.name)

/-! ### The jobs -/

/-- The pre-activation job looks at strict mode through its action alone. -/
theorem PreActivation.filters_build (ctx : Context) :
    Filters (build ctx.hardened) (build ctx) := by
  rw [build_eq, build_eq]
  refine .bind (.refl _) fun deadline => .ite ?_
  exact .bind (ctx.filters_pin _) fun scriptAction => .refl _

/-- The activation job looks at strict mode through its action alone. -/
theorem Activation.filters_build (ctx : Context) (pre : Option PreActivation)
    (customJobs : List CustomJob) :
    Filters (build ctx.hardened pre customJobs) (build ctx pre customJobs) := by
  rw [build_eq, build_eq]
  refine .bind (.refl _) fun user => .ite ?_
  exact .bind (ctx.filters_pin _) fun scriptAction => .refl _

namespace Agent

/-- The steps that publish the outputs differ by their actions alone. -/
theorem filters_addPublication (ctx : Context) (s : SafeOutputs) (job : Job) :
    Filters (addPublication ctx.hardened s job) (addPublication ctx s job) := by
  refine .bind (ctx.filters_pin _) fun scriptAction => ?_
  exact .bind (ctx.filters_pin _) fun uploadAction => .refl _

/-- The agent job depends on strict mode through its actions and its permissions. -/
theorem filters_build (ctx : Context) (activation : Activation) (customJobs : List CustomJob)
    (hasPreActivation : Bool) (engineSteps : List Step) :
    Filters (build ctx.hardened activation customJobs hasPreActivation engineSteps)
      (build ctx activation customJobs hasPreActivation engineSteps) := by
  refine .bind (filters_permissions ctx) fun permissions => ?_
  refine .bind (ctx.filters_pin _) fun checkoutAction => ?_
  simp only [Context.hardened_workflow]
  cases ctx.workflow.outputs with
  | some s => exact filters_addPublication ctx s _
  | none => exact .refl _

end Agent

namespace Dispatch

/-- The steps that prepare a working tree differ by their actions alone. -/
theorem filters_addWorkingTree (ctx : Context) (s : SafeOutputs) (kinds : List OutputKind)
    (job : Job) :
    Filters (addWorkingTree ctx.hardened s kinds job) (addWorkingTree ctx s kinds job) := by
  refine .bind (ctx.filters_pin _) fun downloadAction => ?_
  exact .bind (ctx.filters_pin _) fun checkoutAction => .refl _

/-- The project handler depends on strict mode through its action and its token. -/
theorem filters_addProjects (ctx : Context) (s : SafeOutputs) (kinds : List OutputKind)
    (job : Job) :
    Filters (addProjects ctx.hardened s kinds job) (addProjects ctx s kinds job) := by
  refine .bind (ctx.filters_pin _) fun scriptAction => ?_
  exact .bind (s.filters_projectToken ctx.strict) fun token => .refl _

/-- The steps for several kinds depend on strict mode through those of each group. -/
theorem filters_addShared (ctx : Context) (s : SafeOutputs) (kinds : List OutputKind)
    (hasProjects : Bool) (job : Job) :
    Filters (addShared ctx.hardened s kinds hasProjects job)
      (addShared ctx s kinds hasProjects job) :=
  .bind (ctx.filters_pin _) fun _ => .refl _

/-- The step of a single kind differs by its action alone. -/
theorem filters_addOwn (ctx : Context) (s : SafeOutputs) (job : Job) (kind : OutputKind) :
    Filters (addOwn ctx.hardened s job kind) (addOwn ctx s job kind) :=
  .bind (ctx.filters_pin _) fun _ => .refl _

/-- The safe outputs job is put together from steps that strict mode only filters. -/
theorem filters_build (ctx : Context) (hasActivation : Bool) :
    Filters (build ctx.hardened hasActivation) (build ctx hasActivation) := by
  simp only [build, Context.hardened_workflow]
  cases ctx.workflow.outputs with
  | none => exact .refl _
  | some s =>
      refine .map ?_
      rw [ofSettings_eq, ofSettings_eq]
      refine .bind (ctx.filters_pin _) fun downloadAction => ?_
      refine .bind (.ite (filters_addWorkingTree ..)) fun job => ?_
      refine .bind (.ite (filters_addProjects ..)) fun job => ?_
      refine .bind (.ite (filters_addShared ..)) fun job => ?_
      exact .foldlM (filters_addOwn ctx s)

end Dispatch

/-! ### The compilation -/

namespace Compiler

/-- The compiler whose options ask for strict mode or not. -/
def withStrict (c : Compiler) (strict : Bool) : Compiler :=
  { c with options := { c.options with strict } }

/-- The jobs of a strict workflow are those of the lenient one, if there are any. -/
theorem filters_generate (c : Compiler) (ctx : Context) :
    Filters (c.generate ctx.hardened) (c.generate ctx) := by
  refine .bind (.refl _) fun customJobs => ?_
  refine .bind (PreActivation.filters_build ctx) fun preActivation => ?_
  refine .bind (Activation.filters_build ctx preActivation customJobs) fun activation => ?_
  refine .bind (Agent.filters_build ctx activation customJobs _ _) fun agent => ?_
  exact .bind (Dispatch.filters_build ctx _) fun safeOutputs => .refl _

/-- A strict compilation filters the lenient one. -/
theorem filters_compileFrom (c : Compiler) (w : Workflow) (sourceStem : Option String) :
    Filters ((c.withStrict true).compileFrom w sourceStem)
      ((c.withStrict false).compileFrom w sourceStem) := by
  have hgenerate := filters_generate c ((c.withStrict false).context w sourceStem)
  -- what is generated is put together and validated in the same way
  exact .bind hgenerate fun g => .refl _

/-- **Strict mode is a filter.** What a strict compilation gives, the lenient one gives as
well; and where only the lenient one succeeds, the strict one ends at an error of strict
mode. -/
theorem compileFrom_strict (c : Compiler) (w : Workflow) (sourceStem : Option String) :
    (∀ p, (c.withStrict true).compileFrom w sourceStem = .ok p →
      (c.withStrict false).compileFrom w sourceStem = .ok p) ∧
    ∀ p e, (c.withStrict false).compileFrom w sourceStem = .ok p →
      (c.withStrict true).compileFrom w sourceStem = .error e → e.StrictOnly := by
  have h := filters_compileFrom c w sourceStem
  exact ⟨fun p => h.ok, fun p e => h.strictOnly⟩

/-- A workflow that passes, and one whose agent may write. -/
theorem compileFrom_strict_locking :
    (∃ p, ((pinning true).withStrict true).compileFrom (locking none) (some "triage") = .ok p ∧
      ((pinning true).withStrict false).compileFrom (locking none) (some "triage") = .ok p) ∧
    ∃ p e, ((pinning true).withStrict false).compileFrom
        (locking (some (.shorthand .writeAll))) (some "triage") = .ok p ∧
      ((pinning true).withStrict true).compileFrom
        (locking (some (.shorthand .writeAll))) (some "triage") = .error e ∧
      e.StrictOnly := by
  constructor
  · obtain ⟨p, hp, -⟩ := exists_compileFrom_locking true none (.inr rfl)
    exact ⟨p, hp, (compileFrom_strict (pinning true) _ _).1 p hp⟩
  · obtain ⟨p, hp, -⟩ := exists_compileFrom_locking false (some (.shorthand .writeAll)) (.inl rfl)
    have he : ((pinning true).withStrict true).compileFrom
        (locking (some (.shorthand .writeAll))) (some "triage") =
          .error (.config (.writePermissionInStrictMode "actions")) := rfl
    exact ⟨p, _, hp, he, (compileFrom_strict (pinning true) _ _).2 p _ hp he⟩

end Compiler

end AgentPipeline
