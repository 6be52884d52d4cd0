import AgentPipeline.Workflow.Section

/-!
# Triggers

The section `on` of a workflow is the name of an event, a list of names, or a mapping of
events to their configuration. In a mapping, four keys are not events but settings of the
workflow: the deadline `stop-after`, the two skip queries, and the `reaction`. The
configuration of an event may hold one more setting, `lock-for-agent`, which is taken out
of it; the last entry of the configuration moves into its place.

## Main definitions

* `TriggerSection`: what the section says.
* `TriggerSection.ofValue`: the section that a value denotes.
-/

namespace AgentPipeline

/-- What the section of the triggers says. -/
structure TriggerSection where
  /-- the events and their configuration -/
  events : Dictionary Yaml.Value
  stopTime : Option String
  skipIfMatch : Option SkipQuery
  skipIfNoMatch : Option SkipQuery
  reaction : Option String
  lockForAgent : Bool

namespace TriggerSection

/-- The section without events. -/
def empty : TriggerSection := ⟨.empty, none, none, none, none, false⟩

instance : Inhabited TriggerSection := ⟨empty⟩

/-- The reactions that can be asked for; the last one stands for no reaction. -/
def reactions : List String :=
  ["+1", "-1", "laugh", "confused", "heart", "hooray", "rocket", "eyes", "none"]

/-- The text of a string or a number. -/
def scalarText? : Yaml.Value → Option String
  | .string s => some s
  | .number n => some n.text
  | _ => none

/-- The reaction that a value denotes. The number one is the reaction `+1`. -/
def readReaction (v : Yaml.Value) : Except ConfigError (Option String) := do
  let name ←
    match v with
    | .number (.int 1) => pure "+1"
    | v =>
      match scalarText? v with
      | some s => pure s
      | none => .error (.invalidTrigger ("reaction: " ++ v.describe))
  if reactions.contains name then pure (if name = "none" then none else some name)
  else
    .error (.invalidTrigger
      ("reaction '" ++ name ++ "' is not one of " ++ ", ".intercalate reactions))

/-- The deadline that a value denotes. -/
def readStopTime (v : Yaml.Value) : Except ConfigError String :=
  match scalarText? v with
  | some s => .ok s
  | none => .error (.invalidStopTime v.describe)

/-- Why a value denotes no skip query: there is a tag in it, or it has none of the forms. -/
def queryMismatch (v : Yaml.Value) : String :=
  if v.isUntagged then "data did not match any variant of untagged enum RawQuery"
  else "untagged and internally tagged enums do not support enum input"

/-- The skip query under a key. -/
def readSkipQuery (key : String) (v : Yaml.Value) : Except ConfigError SkipQuery :=
  match SkipQuery.ofValue? v with
  | some query => .ok query
  | none => .error (.invalidTrigger (key ++ ": " ++ queryMismatch v))

/-- The key of the setting that is taken out of the configuration of an event. -/
def lockKey : String := "lock-for-agent"

/-- A list of entries without the first one of a key; the last entry moves into its
place. -/
def removeSwapping (key : String) (entries : List (Yaml.Value × Yaml.Value)) :
    List (Yaml.Value × Yaml.Value) :=
  match entries.findIdx? (·.1.isString key), entries.getLast? with
  | some i, some last => (entries.set i last).dropLast
  | _, _ => entries

/-- The configuration of an event without the settings of the workflow in it. An empty
mapping is no configuration. -/
def eventConfig : Yaml.Value → Yaml.Value
  | .mapping entries =>
    let rest := removeSwapping lockKey entries
    if rest.isEmpty then .null else .mapping rest
  | v => v

/-- Whether the configuration of an event asks for its issue to be locked. -/
def asksForLock (event : String) : Yaml.Value → Bool
  | .mapping entries =>
    Names.lockableEvents.contains event &&
      ((Yaml.Value.lookup lockKey entries).bind (·.asBool?)).getD false
  | _ => false

/-- The section with one more event. -/
def addEvent (s : TriggerSection) (event : String) (config : Yaml.Value) :
    TriggerSection :=
  { s with
    events := s.events.insert event (eventConfig config)
    lockForAgent := s.lockForAgent || asksForLock event config }

/-- The section with one more entry of a mapping. -/
def addEntry (s : TriggerSection) (k v : Yaml.Value) :
    Except ConfigError TriggerSection :=
  match k.asString? with
  | none => .error (.invalidTrigger k.describe)
  | some key => do
    if key = "stop-after" then pure { s with stopTime := some (← readStopTime v) }
    else if key = "skip-if-match" then
      pure { s with skipIfMatch := some (← readSkipQuery key v) }
    else if key = "skip-if-no-match" then
      pure { s with skipIfNoMatch := some (← readSkipQuery key v) }
    else if key = "reaction" then pure { s with reaction := ← readReaction v }
    else pure (s.addEvent key v)

/-- The section with one more item of a list. -/
def addItem (s : TriggerSection) (v : Yaml.Value) : Except ConfigError TriggerSection :=
  match v.asString? with
  | some event => .ok (s.addEvent event .null)
  | none =>
    .error (.invalidTrigger ("event names must be strings, got " ++ v.describe))

/-- The section with the entries of a value. -/
def readEntries : Yaml.Value → Except ConfigError TriggerSection
  | .string event => .ok (empty.addEvent event .null)
  | .sequence items => items.foldlM addItem empty
  | .mapping entries => entries.foldlM (fun s e => s.addEntry e.1 e.2) empty
  | v => .error (.invalidTrigger v.describe)

/-- The section that a value denotes. There has to be an event. -/
def ofValue (v : Yaml.Value) : Except ConfigError TriggerSection := do
  let s ← readEntries v
  if s.events.isEmpty then .error (.invalidTrigger "no events configured") else pure s

end TriggerSection

end AgentPipeline
