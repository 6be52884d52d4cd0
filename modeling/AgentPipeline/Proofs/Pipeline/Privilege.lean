import AgentPipeline.Proofs.Permission.Merge
import AgentPipeline.Proofs.Pipeline.Coverage

/-!
# Least privilege of the safe outputs job

One job performs the outputs of all kinds, with one token. Its permissions are merged from
those that the configured kinds take, all of which are explicit grants
(`permissions_of_build`), so the job holds the highest level of these in each scope and
nothing else (`isHighest_permissions`).
-/

namespace AgentPipeline

theorem OutputKind.isShorthand_permissions (kind : OutputKind) :
    kind.permissions.isShorthand = false := by
  cases kind <;> rfl

namespace Dispatch

variable {ctx : Context} {s : SafeOutputs} {job : Job}

theorem permissions_eq_mergeAll (kinds : List OutputKind) :
    permissions kinds = Permissions.mergeAll (kinds.map (·.permissions)) :=
  List.foldl_map.symm

/-- The job is begun with the permissions of the configured kinds, and keeps them. -/
theorem permissions_of_build {hasActivation : Bool} (hs : ctx.workflow.safeOutputs = some s)
    (h : build ctx hasActivation = .ok (some job)) :
    job.permissions = some (permissions s.kinds) := by
  unfold build at h
  split at h
  · next s' hs' =>
    obtain ⟨job, hjob, ⟨⟩⟩ := map_eq_ok_iff.mp h
    obtain rfl : s' = s :=
      Option.some.inj ((Workflow.outputs_eq_some_iff.mp hs').1.symm.trans hs)
    exact (sameFrame_of_ofSettings hjob).permissions
  · cases h

/-- **Least privilege.** Explicit grants that are merged into the grant of nothing give the
highest level of the list in each scope, and no level where none of them gives one. The result
depends only on which grants are in the list. The safe outputs job holds the result for the
grants of the kinds that are configured. -/
theorem isHighest_permissions :
    (∀ l : List Permissions, (∀ p ∈ l, p.isShorthand = false) →
      ∃ grants, Permissions.mergeAll l = .explicit grants ∧
        ∀ scope, Permissions.IsHighest l scope (grants scope) ∧
          (grants scope = none ↔ ∀ p ∈ l, p.get scope = none)) ∧
    (∀ l l' : List Permissions, (∀ p ∈ l, p.isShorthand = false) → (∀ p, p ∈ l' ↔ p ∈ l) →
      Permissions.mergeAll l' = Permissions.mergeAll l) ∧
    ∀ (ctx : Context) (hasActivation : Bool) (s : SafeOutputs) (job : Job),
      ctx.workflow.safeOutputs = some s → build ctx hasActivation = .ok (some job) →
      ∃ grants, job.permissions = some (.explicit grants) ∧
        ∀ scope, Permissions.IsHighest (s.kinds.map (·.permissions)) scope (grants scope) := by
  refine ⟨fun l hl => ?_, fun l l' => Permissions.mergeAll_eq_of_mem_iff, ?_⟩
  · obtain ⟨grants, heq, hhighest⟩ := Permissions.isHighest_mergeAll hl
    exact ⟨grants, heq, fun scope => ⟨hhighest scope, (hhighest scope).eq_none_iff⟩⟩
  · intro ctx hasActivation s job hs h
    have hkinds : ∀ p ∈ s.kinds.map (·.permissions), p.isShorthand = false := by
      intro p hp
      obtain ⟨kind, -, rfl⟩ := List.mem_map.mp hp
      exact kind.isShorthand_permissions
    obtain ⟨grants, heq, hhighest⟩ := Permissions.isHighest_mergeAll hkinds
    refine ⟨grants, ?_, hhighest⟩
    rw [permissions_of_build hs h, permissions_eq_mergeAll, heq]

/-- Among kinds of all categories, only the pull request asks for the level write on the
contents, and no kind asks for anything on packages. -/
theorem isHighest_permissions_mixed :
    ∃ (job : Job) (grants : Grants), build mixedContext true = .ok (some job) ∧
      job.permissions = some (.explicit grants) ∧ grants .contents = some .write ∧
      grants .packages = none := by
  obtain ⟨job, hjob⟩ : ∃ job, build mixedContext true = .ok (some job) := ⟨_, rfl⟩
  obtain ⟨grants, hgrants, hhighest⟩ :=
    isHighest_permissions.2.2 mixedContext true mixedOutputs job rfl hjob
  have hcontents : Permissions.IsHighest (mixedOutputs.kinds.map (·.permissions)) .contents
      (some .write) :=
    ⟨fun level hlevel => ⟨OutputKind.createPullRequest.permissions,
      List.mem_map_of_mem (by decide), hlevel ▸ rfl⟩, by decide⟩
  refine ⟨job, grants, hjob, hgrants, ?_, ?_⟩
  · exact (hhighest .contents).unique hcontents fun _ => Iff.rfl
  · exact (hhighest .packages).eq_none_iff.mpr (by decide)

end Dispatch

end AgentPipeline
