import AgentPipeline.Proofs.Pipeline.Mention
import AgentPipeline.Proofs.Pipeline.Presence
import Mathlib.Data.List.Duplicate

/-!
# Needs that repeat

A job that is generated gets its needs one by one, each unless it has it already
(`Job.nodup_foldl_addName`), or from a fixed list of different names. A job of the author gets the
needs that its definition asks for as they stand there. So a job of a pipeline needs another one
twice only if it is one of the author's, and asks for it twice (`duplicate_needs_iff`), and just
then its text has the line of that job twice (`Job.duplicate_needsLines_iff`).
-/

namespace AgentPipeline

open List (Duplicate)

/-! ### Names that are added once -/

namespace Job

variable {names more : List String} {name : String}

/-- A name is only added if it is not there. -/
theorem nodup_addName (h : names.Nodup) : (addName names name).Nodup := by
  unfold addName
  split
  · exact h
  · next hnew => exact List.nodup_append.mpr ⟨h, List.nodup_singleton _, by
      rintro x hx _ hy rfl
      exact hnew (List.mem_singleton.mp hy ▸ hx)⟩

/-- Names that are added one by one do not repeat. -/
theorem nodup_foldl_addName (h : names.Nodup) : (more.foldl addName names).Nodup := by
  induction more generalizing names with
  | nil => exact h
  | cons name more ih => exact ih (nodup_addName h)

/-! ### Lines that repeat -/

/-- The line of a job among several that are needed. -/
def needLine (name : String) : String := Yaml.pad (column + 2) ++ "- " ++ name

/-- The lines of different needs differ. -/
theorem needLine_injective : Function.Injective needLine := fun name name' h => by
  have hlist := congrArg String.toList h
  simp only [needLine, String.toList_append] at hlist
  exact String.toList_inj.mp (List.append_cancel_left hlist)

/-- The line of a job stands further to the right than the key. -/
theorem needLine_ne_key : needLine name ≠ Yaml.pad column ++ "needs:" := by
  intro h
  have hchar : (needLine name).toList[4]? = some ' ' := by
    rw [needLine, String.toList_append]
    rfl
  rw [h] at hchar
  exact absurd hchar (by decide)

/-- A line repeats exactly if it is the line of a job that repeats. -/
theorem duplicate_needsLines_iff {line : String} :
    Duplicate line (needsLines names) ↔ ∃ name, line = needLine name ∧ Duplicate name names := by
  have hmap (l : List String) :
      Duplicate line (l.map needLine) ↔ ∃ name, line = needLine name ∧ Duplicate name l := by
    simp only [List.duplicate_iff_two_le_count]
    constructor
    · intro hcount
      have hmem : line ∈ l.map needLine := List.count_pos_iff.mp (Nat.zero_lt_of_lt hcount)
      obtain ⟨name, -, rfl⟩ := List.mem_map.mp hmem
      rw [List.count_map_of_injective l needLine needLine_injective] at hcount
      exact ⟨name, rfl, hcount⟩
    · rintro ⟨name, rfl, hcount⟩
      rwa [List.count_map_of_injective l needLine needLine_injective]
  match names with
  | [] => exact iff_of_false (List.not_duplicate_nil _) fun ⟨_, _, h⟩ => List.not_duplicate_nil _ h
  | [name] =>
      exact iff_of_false (List.not_duplicate_singleton _ _) fun ⟨_, _, h⟩ =>
        List.not_duplicate_singleton _ _ h
  | name :: name' :: names =>
      have hlines : needsLines (name :: name' :: names) =
          (Yaml.pad column ++ "needs:") :: (name :: name' :: names).map needLine := rfl
      rw [hlines, List.duplicate_cons_iff, hmap]
      refine or_iff_right ?_
      rintro ⟨hkey, hmem⟩
      obtain ⟨_, -, hline⟩ := List.mem_map.mp hmem
      exact needLine_ne_key (hline.trans hkey.symm)

end Job

/-! ### Where needs repeat -/

/-- A job of the author repeats what its definition does: the default stands alone. -/
theorem CustomJob.duplicate_effectiveNeeds_iff {custom : CustomJob} {activationExists : Bool}
    {need : String} :
    Duplicate need (custom.effectiveNeeds activationExists) ↔ Duplicate need custom.needs := by
  unfold effectiveNeeds
  split
  · next hdefault =>
    rw [Bool.and_eq_true, List.isEmpty_iff] at hdefault
    rw [hdefault.1]
    exact iff_of_false (List.not_duplicate_singleton _ _) (List.not_duplicate_nil _)
  · rfl

/-- The needs of the activation job do not repeat. -/
theorem Activation.nodup_needs {hasPreActivation : Bool} {customJobs : List CustomJob} :
    (needs hasPreActivation customJobs).Nodup := by
  unfold needs
  split
  · exact Job.nodup_foldl_addName (List.nodup_singleton _)
  · exact List.nodup_nil

/-- The needs of the agent job do not repeat. -/
theorem Agent.nodup_needs {hasActivation : Bool} {referenced : List String} :
    (needs hasActivation referenced).Nodup := by
  refine Job.nodup_foldl_addName ?_
  split
  · exact List.nodup_singleton _
  · exact List.nodup_nil

namespace Compiler

variable {c : Compiler} {w : Workflow} {sourceStem : Option String} {ctx : Context}
  {g : Generated} {job : Job} {p : Pipeline}

namespace Generates

/-- No two jobs of the author have one name. -/
theorem eq_of_name_eq (hg : c.Generates ctx g) {custom custom' : CustomJob}
    (hcustom : custom ∈ g.customJobs) (hcustom' : custom' ∈ g.customJobs)
    (hname : custom.name = custom'.name) : custom = custom' := by
  have hnodup : (g.customJobs.map (·.name)).Nodup := by
    rw [Workflow.map_name_customJobs hg.customJobs]
    exact Dictionary.nodup_keys _
  exact List.inj_on_of_nodup_map hnodup hcustom hcustom' hname

/-- **Generated jobs need no job twice**: what repeats, repeats in a definition of the author. -/
theorem nodup_or_custom (hg : c.Generates ctx g) (h : g.Origin ctx job) :
    (job.name ∈ Names.reservedJobs ∧ job.needs.Nodup) ∨
      ∃ custom ∈ g.customJobs, custom.name = job.name ∧
        job.needs = custom.effectiveNeeds g.activation.job.isSome := by
  cases h with
  | preActivation hpre =>
      obtain ⟨hname, hneeds⟩ := hg.preActivation_place hpre
      exact .inl ⟨hname ▸ by decide, hneeds ▸ List.nodup_nil⟩
  | activation hjob =>
      obtain ⟨hname, hneeds⟩ := hg.activation_place hjob
      exact .inl ⟨hname ▸ by decide, hneeds ▸ Activation.nodup_needs⟩
  | agent =>
      obtain ⟨hname, hneeds⟩ := hg.agent_place
      exact .inl ⟨hname ▸ by decide, hneeds ▸ Agent.nodup_needs⟩
  | custom hcustom hjob =>
      obtain ⟨hname, hneeds⟩ := CustomJob.place_of_toJob hjob
      exact .inr ⟨_, hcustom, hname.symm, hneeds⟩
  | safeOutputs hjob =>
      obtain ⟨hname, hneeds⟩ := hg.safeOutputs_place hjob
      refine .inl ⟨hname ▸ by decide, ?_⟩
      rw [hneeds]
      split <;> decide

end Generates

/-- **When needs repeat.** A job of a pipeline needs another one twice exactly if it is one of the
author's jobs whose definition asks for that one twice. A line among those of its needs repeats
exactly if it is the line of such a job. -/
theorem duplicate_needs_iff (h : c.compileFrom w sourceStem = .ok p) :
    ∃ customJobs, w.customJobs = .ok customJobs ∧ ∀ job ∈ p.jobs.members,
      (∀ need, Duplicate need job.needs ↔
        ∃ custom ∈ customJobs, custom.name = job.name ∧ Duplicate need custom.needs) ∧
      ∀ line, Duplicate line (Job.needsLines job.needs) ↔
        ∃ need, line = Job.needLine need ∧ Duplicate need job.needs := by
  obtain ⟨g, hg, hgraph, -, -⟩ := compileFrom_eq_ok_iff.mp h
  refine ⟨g.customJobs, hg.customJobs, fun job hjob => ⟨fun need => ?_, fun line =>
    Job.duplicate_needsLines_iff⟩⟩
  rcases hg.nodup_or_custom ((mem_members_of_assemble hgraph).mp hjob) with
    ⟨hreserved, hnodup⟩ | ⟨custom, hcustom, hname, hneeds⟩
  · refine iff_of_false (List.nodup_iff_forall_not_duplicate.mp hnodup need) ?_
    rintro ⟨custom, hcustom, hname, -⟩
    exact hg.name_notMem hcustom (hname ▸ hreserved)
  · rw [hneeds, CustomJob.duplicate_effectiveNeeds_iff]
    refine ⟨fun hneed => ⟨custom, hcustom, hname, hneed⟩, ?_⟩
    rintro ⟨other, hother, hname', hneed⟩
    obtain rfl := hg.eq_of_name_eq hother hcustom (hname'.trans hname.symm)
    exact hneed

/-- A job of the author that asks for the same job twice. -/
def reportJob : CustomJob :=
  ⟨"report", ["fetch", "fetch"],
    [(.string "needs", .sequence [.string "fetch", .string "fetch"]),
      (.string "steps", .sequence [])]⟩

/-- A workflow with this job and the one that it asks for. -/
def reporting : Workflow :=
  { Workflow.named "plan" with
    triggers := .ofList [("schedule", .null)]
    jobs := .ofList ([fetchJob, reportJob].map fun custom =>
      (custom.name, .mapping custom.definition)) }

/-- What is generated from it. -/
def reported : Generated where
  customJobs := [fetchJob, reportJob]
  preActivation := none
  activation := ⟨none, none⟩
  agent :=
    { name := Names.agentJob
      runsOn := Names.defaultRunner
      permissions := some (.shorthand .readAll)
      steps := Agent.mainSteps reporting "actions/checkout@11bd719 # v5.0.0" [] }
  safeOutputs := none

/-- The jobs of such a workflow, as they are generated. -/
theorem generates_reported :
    (pinning false).Generates ((pinning false).context reporting none) reported :=
  ⟨rfl, rfl, rfl, rfl, rfl⟩

/-- None of these jobs refers to another one. -/
theorem covered_of_origin_reported
    (h : reported.Origin ((pinning false).context reporting none) job) : job.Covered := by
  obtain ⟨-, hcheckout, hprompt⟩ := templates_locking
  cases h with
  | preActivation h => cases h
  | activation h => cases h
  | agent =>
      refine Job.covered_of_expressions (Job.expressions_eq_nil rfl (fun step hstep => ?_)
        rfl rfl rfl)
      rcases List.mem_pair.mp hstep with rfl | rfl
      · exact ⟨rfl, hcheckout⟩
      · exact ⟨rfl, hprompt⟩
  | custom hcustom hjob =>
      rcases List.mem_pair.mp hcustom with rfl | rfl <;> cases hjob <;>
        exact Job.covered_of_expressions rfl
  | safeOutputs h => cases h

/-- The workflow is compiled, and its job asks twice for the other one in the pipeline too. -/
theorem exists_compileFrom_reporting :
    ∃ p, (pinning false).compileFrom reporting none = .ok p ∧
      ∃ job ∈ p.jobs.members, job.name = "report" ∧ job.needs = ["fetch", "fetch"] := by
  obtain ⟨graph, hgraph⟩ :
      ∃ graph, assemble ((pinning false).context reporting none) reported = .ok graph := ⟨_, rfl⟩
  have horder : graph.order = .ok ["fetch", "report", "agent"] := by
    cases hgraph
    rfl
  have hisOrder : graph.IsOrder ["fetch", "report", "agent"] := JobGraph.order_eq_ok horder
  have hcovered : graph.Covered := fun job hjob =>
    covered_of_origin_reported ((mem_members_of_assemble hgraph).mp hjob)
  have hvalid : graph.validate = .ok () :=
    JobGraph.validate_eq_ok_iff.mpr ⟨hisOrder.closed, hisOrder.acyclic, hcovered⟩
  refine ⟨⟨"plan", reporting.triggers, none, graph⟩,
    compileFrom_eq_ok_iff.mpr ⟨reported, generates_reported, hgraph, hvalid, rfl⟩, ?_⟩
  obtain ⟨job, hjob, hname, hneeds⟩ :=
    Generates.exists_custom hgraph (List.mem_cons_of_mem _ (List.mem_singleton_self reportJob))
  exact ⟨job, hjob, hname, hneeds⟩

/-- A job that asks for `fetch` twice has two lines for it. -/
theorem duplicate_needs_iff_reporting :
    ∃ p, (pinning false).compileFrom reporting none = .ok p ∧ ∃ job ∈ p.jobs.members,
      Duplicate "fetch" job.needs ∧ Duplicate "      - fetch" (Job.needsLines job.needs) := by
  obtain ⟨p, hp, job, hjob, hname, -⟩ := exists_compileFrom_reporting
  obtain ⟨customJobs, hcustomJobs, h⟩ := duplicate_needs_iff hp
  obtain rfl : [fetchJob, reportJob] = customJobs := Except.ok.inj hcustomJobs
  have hneed : Duplicate "fetch" job.needs := ((h job hjob).1 "fetch").mpr
    ⟨reportJob, by simp, hname.symm, .cons_mem (List.mem_singleton_self _)⟩
  exact ⟨p, hp, job, hjob, hneed, ((h job hjob).2 _).mpr ⟨"fetch", rfl, hneed⟩⟩

/-- **The needs of a job may repeat**: what a definition asks for twice is needed twice. -/
theorem exists_duplicate_needs :
    ∃ w p, (pinning false).compileFrom w none = .ok p ∧
      ∃ job ∈ p.jobs.members, ¬job.needs.Nodup := by
  obtain ⟨p, hp, job, hjob, -, hneeds⟩ := exists_compileFrom_reporting
  exact ⟨reporting, p, hp, job, hjob, hneeds ▸ by decide⟩

end Compiler

end AgentPipeline
