import AgentPipeline.Proofs.Job.Sections
import AgentPipeline.Proofs.Pipeline.Place

/-!
# From definitions to jobs

The definition of a custom job is converted entry by entry. Each key that a job knows has a field
of its own (`Job.part`). A value of the form that the field expects (`isField`) is stored there, and
any other value is kept as it is, with the field left empty: this is where an entry is `Placed`.

An entry changes nothing about the other keys (`eq_of_converts`). As the keys of a definition are
distinct, each entry stays where it was put, and what the definition does not mention stays empty
(`placed_of_addEntries`, `eq_of_addEntries`). It follows that no key is written both from its field
and from a kept value.
-/

namespace AgentPipeline

/-- What a job holds in the field of a key. -/
inductive Job.Part where
  /-- the key has no field -/
  | none
  | runner (text : String)
  | text (text : Option String)
  | minutes (n : Option Nat)
  | permissions (p : Option Permissions)
  | texts (d : Dictionary String)
  | steps (texts : List String)

/-- The field of a key. -/
def Job.part (job : Job) : String → Job.Part
  | "runs-on" => .runner job.runsOn
  | "if" => .text job.condition
  | "name" => .text job.displayName
  | "environment" => .text job.environment
  | "concurrency" => .text job.concurrency
  | "timeout-minutes" => .minutes job.timeoutMinutes
  | "permissions" => .permissions job.permissions
  | "steps" => .steps job.stepTexts
  | "outputs" => .texts job.outputs
  | "env" => .texts job.env
  | _ => .none

namespace CustomJob

variable {job job' : Job} {key k name : String} {v : Yaml.Value} {runner : String}
  {activationExists : Bool} {definition : List (Yaml.Value × Yaml.Value)}

/-! ### Fields of entries -/

/-- The dictionary has the texts of the scalars among the entries. -/
def SpellsTexts (entries : List (Yaml.Value × Yaml.Value)) (d : Dictionary String) : Prop :=
  ∃ texts : List (String × String),
    texts.map (fun e => (some e.1, some e.2)) =
        entries.map (fun e => (e.1.asString?, scalarText? e.2)) ∧ d = .ofList texts

/-- **What an entry denotes** in the field of its key. -/
inductive Denotes : String → Yaml.Value → Job.Part → Prop
  | runner {text : String} : Denotes "runs-on" (.string text) (.runner text)
  | condition {text : String} :
      Denotes "if" (.string text) (.text (some (Reference.unwrapTemplate text)))
  | name {text : String} : Denotes "name" (.string text) (.text (some text))
  | environment {text : String} : Denotes "environment" (.string text) (.text (some text))
  | concurrency {text : String} : Denotes "concurrency" (.string text) (.text (some text))
  | minutes {n : Yaml.Number} {minutes : Nat} : n.asUInt32? = some minutes →
      Denotes "timeout-minutes" (.number n) (.minutes (some minutes))
  | permissions {v : Yaml.Value} {p : Permissions} : Permissions.ofValue v = .ok p →
      Denotes "permissions" v (.permissions (some p))
  | steps {items : List Yaml.Value} :
      Denotes "steps" (.sequence items) (.steps (items.map (Yaml.listItem Step.column)))
  | outputs {entries : List (Yaml.Value × Yaml.Value)} {d : Dictionary String} :
      SpellsTexts entries d → Denotes "outputs" (.mapping entries) (.texts d)
  | env {entries : List (Yaml.Value × Yaml.Value)} {d : Dictionary String} :
      SpellsTexts entries d → Denotes "env" (.mapping entries) (.texts d)

/-- The keys of a definition are distinct strings. -/
structure HasStringKeys (definition : List (Yaml.Value × Yaml.Value)) : Prop where
  strings : ∀ e ∈ definition, ∃ key, e.1 = .string key
  nodup : (definition.map (·.1)).Nodup

/-- The first key is a string and does not come again. -/
theorem HasStringKeys.cons {e : Yaml.Value × Yaml.Value}
    (h : HasStringKeys (e :: definition)) : ∃ k v, e = (.string k, v) ∧
      (∀ v', (Yaml.Value.string k, v') ∉ definition) ∧ HasStringKeys definition := by
  obtain ⟨hstring, hstrings⟩ := List.forall_mem_cons.mp h.strings
  obtain ⟨hnotMem, hnodup⟩ := List.nodup_cons.mp h.nodup
  obtain ⟨k, hk⟩ := hstring
  refine ⟨k, e.2, by rw [← hk], fun v' hmem => ?_, hstrings, hnodup⟩
  exact hnotMem (List.mem_map.mpr ⟨_, hmem, hk.symm⟩)

end CustomJob

end AgentPipeline
