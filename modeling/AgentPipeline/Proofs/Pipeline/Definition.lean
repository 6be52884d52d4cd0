import AgentPipeline.Pipeline.CustomJob
import AgentPipeline.Proofs.Except

/-!
# Entries of definitions

The definition of a custom job is converted entry by entry. What one entry does to the job is listed
once (`CustomJob.Converts`): a value of the form that the field of its key expects goes to that
field, any other value is kept as it is, and the needed jobs are left to those who begin the job.
What each entry leaves true of a job, the whole definition leaves true
(`CustomJob.addEntries_invariant`).
-/

namespace AgentPipeline.CustomJob

variable {job job' : Job} {key : String} {v : Yaml.Value}
  {definition : List (Yaml.Value × Yaml.Value)}

/-- Whether the value of a key has the form that the field of the key expects. -/
def isField : String → Yaml.Value → Bool
  | "runs-on", .string _ => true
  | "if", .string _ => true
  | "name", .string _ => true
  | "environment", .string _ => true
  | "concurrency", .string _ => true
  | "timeout-minutes", .number _ => true
  | "permissions", _ => true
  | "steps", .sequence _ => true
  | "outputs", .mapping _ => true
  | "env", .mapping _ => true
  | _, _ => false

/-- **What an entry does to a job**, if it can be converted. -/
inductive Converts (job : Job) : String → Yaml.Value → Job → Prop
  | needs {v : Yaml.Value} : Converts job "needs" v job
  | runner {text : String} : Converts job "runs-on" (.string text) { job with runsOn := text }
  | condition {text : String} : Converts job "if" (.string text)
      { job with condition := some (Reference.unwrapTemplate text) }
  | name {text : String} :
      Converts job "name" (.string text) { job with displayName := some text }
  | environment {text : String} :
      Converts job "environment" (.string text) { job with environment := some text }
  | concurrency {text : String} :
      Converts job "concurrency" (.string text) { job with concurrency := some text }
  /-- a number of minutes, which must be in range -/
  | minutes {n : Yaml.Number} {minutes : Nat} : n.asUInt32? = some minutes →
      Converts job "timeout-minutes" (.number n) { job with timeoutMinutes := some minutes }
  | permissions {v : Yaml.Value} {p : Permissions} : Permissions.ofValue v = .ok p →
      Converts job "permissions" v { job with permissions := some p }
  | steps {items : List Yaml.Value} :
      Converts job "steps" (.sequence items) (job.addSteps (items.map .authored))
  | outputs {entries : List (Yaml.Value × Yaml.Value)} {d : Dictionary String} :
      readTexts job.name "outputs" entries = .ok d →
      Converts job "outputs" (.mapping entries) { job with outputs := d }
  | env {entries : List (Yaml.Value × Yaml.Value)} {d : Dictionary String} :
      readTexts job.name "env" entries = .ok d →
      Converts job "env" (.mapping entries) { job with env := d }
  /-- a runner that is no text takes the place of the default one -/
  | keptRunner {v : Yaml.Value} : isField "runs-on" v = false →
      Converts job "runs-on" v (keep { job with runsOn := "" } "runs-on" v)
  | kept {key : String} {v : Yaml.Value} : isField key v = false →
      key ∉ ["needs", "runs-on", "steps"] → Converts job key v (keep job key v)

theorem converts_of_addEntry (h : addEntry job key v = .ok job') : Converts job key v job' := by
  unfold addEntry at h
  split at h
  case h_3 =>
    cases h
    refine .keptRunner ?_
    unfold isField
    split <;> simp_all
  case h_8 =>
    split at h <;> cases h
    next hminutes => exact .minutes hminutes
  case h_9 =>
    obtain ⟨p, hp, h⟩ := bind_eq_ok_iff.mp h
    cases h
    exact .permissions hp
  -- steps that are no list
  case h_11 => cases h
  case h_12 =>
    obtain ⟨d, hd, h⟩ := bind_eq_ok_iff.mp h
    cases h
    exact .outputs hd
  case h_13 =>
    obtain ⟨d, hd, h⟩ := bind_eq_ok_iff.mp h
    cases h
    exact .env hd
  case h_14 =>
    cases h
    refine .kept ?_ (by simp_all)
    unfold isField
    split <;> simp_all
  all_goals
    cases h
    constructor

/-- **What each entry leaves true of a job, a definition leaves true.** -/
theorem addEntries_invariant {P : Job → Prop}
    (hP : ∀ {job key v job'}, Converts job key v job' → P job → P job') (hjob : P job)
    (h : addEntries job definition = .ok job') : P job' := by
  refine foldlM_invariant (P := P) (fun job₁ e job₂ hjob₁ hstep => ?_) hjob h
  split at hstep
  · exact hP (converts_of_addEntry hstep) hjob₁
  · exact Except.ok.inj hstep ▸ hjob₁

end AgentPipeline.CustomJob
