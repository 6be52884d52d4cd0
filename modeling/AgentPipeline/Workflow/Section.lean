import AgentPipeline.Workflow.Basic

/-!
# Sections with several forms

The roles, the engine and the skip queries of a workflow are written as a text or in a
longer form. Only strings count as texts here, numbers and booleans do not. The fields of
a record are known by their name, or by their number in the order of the record; other
fields are passed over, and no field may occur twice.

## Main definitions

* `Record`: the fields of a record.
* `Roles.ofValue?`, `SkipQuery.ofValue?`, `Engine.ofValue?`: the sections that values
  denote.
-/

namespace AgentPipeline

namespace Section

/-- A text. -/
def text? : Yaml.Value → Option String
  | .string s => some s
  | _ => none

/-- A list of texts. -/
def texts? : Yaml.Value → Option (List String)
  | .sequence items => items.mapM text?
  | _ => none

/-- What a reader gives, or nothing for null. -/
def optional? {α : Type} (read : Yaml.Value → Option α) : Yaml.Value → Option (Option α)
  | .null => some none
  | v => (read v).map some

/-- A natural number below `2 ^ 32`. -/
def natural? : Yaml.Value → Option Nat
  | .number n => n.asUInt32?
  | _ => none

/-- A dictionary of texts. -/
def dictionary? : Yaml.Value → Option (Dictionary String)
  | .mapping entries => do
    let entries ← entries.mapM fun e => do pure (← text? e.1, ← text? e.2)
    pure (.ofList entries)
  | _ => none

/-- The number of the field that a key means, if it means one. A key is a text or a
natural number. -/
def fieldOf? (names : List (List String)) : Yaml.Value → Option (Option Nat)
  | .string s => some (names.findIdx? (·.contains s))
  | .number (.int n) =>
    if 0 ≤ n then some (if n.toNat < names.length then some n.toNat else none) else none
  | _ => none

/-- The fields of a record whose fields go by the given names, by their numbers. -/
def fields? (names : List (List String)) : Yaml.Value → Option (List (Nat × Yaml.Value))
  | .mapping entries => do
    let fields ← entries.mapM fun e => do
      pure ((← fieldOf? names e.1).map (·, e.2))
    let fields := fields.filterMap id
    if (fields.map (·.1)).Nodup then some fields else none
  | _ => none

/-- A field that has to be there. -/
def required? {α : Type} (fields : List (Nat × Yaml.Value)) (field : Nat)
    (read : Yaml.Value → Option α) : Option α :=
  (fields.lookup field).bind read

/-- A field that may be missing. -/
def missable? {α : Type} (fields : List (Nat × Yaml.Value)) (field : Nat) (default : α)
    (read : Yaml.Value → Option α) : Option α :=
  match fields.lookup field with
  | some v => read v
  | none => some default

end Section

open Section

/-- The roles of a list of names. Among others, the name `all` means everybody. -/
def Roles.ofNames (names : List String) : Roles :=
  if names.contains "all" then .all else .custom names

/-- The roles that a value denotes: one name or a list of names. -/
def Roles.ofValue? (v : Yaml.Value) : Option Roles :=
  if v.isUntagged then
    match text? v with
    | some name => some (.ofNames [name])
    | none => (texts? v).map .ofNames
  else none

/-- The skip query that a value denotes: a search, or a search with a threshold. -/
def SkipQuery.ofValue? (v : Yaml.Value) : Option SkipQuery :=
  if v.isUntagged then
    match text? v with
    | some query => some ⟨query, 1⟩
    | none => do
      let fields ← fields? [["query"], ["max", "min"]] v
      let query ← required? fields 0 text?
      let threshold ← missable? fields 1 none (optional? natural?)
      pure ⟨query, threshold.getD 1⟩
  else none

/-- The engine that a value denotes: its identifier, or its identifier, command and
environment. -/
def Engine.ofValue? (v : Yaml.Value) : Option Engine :=
  if v.isUntagged then
    match text? v with
    | some id => some { Engine.default with id }
    | none => do
      let fields ← fields? [["id"], ["command"], ["env"]] v
      let id ← required? fields 0 text?
      let command ← missable? fields 1 none (optional? text?)
      let env ← missable? fields 2 .empty dictionary?
      pure ⟨id, command, env⟩
  else none

end AgentPipeline
