import AgentPipeline.SafeOutput.Kind
import AgentPipeline.Dictionary
import AgentPipeline.Text.Json
import AgentPipeline.Names

/-!
# Safe output settings

The section `safe-outputs` of a workflow names the kinds of outputs that the agent may ask
for, each with its settings, and a few settings of the job that performs them. Which kinds
are configured is a function on the kinds, so their order in the section leaves no trace.

The handlers get their settings as JSON, keyed by output type and in the order of the
keys. Tokens are not part of it.

## Main definitions

* `OutputSettings`, `SafeOutputs`: the settings of a kind and of the section.
* `SafeOutputs.kinds`, `SafeOutputs.limit`: the configured kinds and their limits.
* `SafeOutputs.handlerConfig`: the settings that handlers get.
* `SafeOutputs.standardToken`, `kindToken`, `projectToken`: which token a handler acts
  with.
* `SafeOutputs.ofValue`: the settings that a section denotes.
-/

namespace AgentPipeline

/-- The settings of a kind of output. -/
structure OutputSettings where
  /-- the number of items that are performed -/
  max : Option Nat
  /-- the token that the kind's handler acts with -/
  githubToken : Option String
  /-- what the titles of created items start with -/
  titlePrefix : Option String
  /-- the labels of created items -/
  labels : List String
  /-- the items that may be acted on -/
  target : Option String
  /-- the repository that is acted on -/
  targetRepo : Option String
  deriving Repr, DecidableEq, Inhabited

/-- The settings of a kind that is merely named. -/
def OutputSettings.default : OutputSettings := ⟨none, none, none, [], none, none⟩

/-- The settings of a section of safe outputs. -/
structure SafeOutputs where
  /-- the token that handlers act with -/
  githubToken : Option String
  /-- whether handlers only report what they would do -/
  staged : Bool
  /-- the runner of the job -/
  runsOn : Option String
  /-- the settings of the kinds that are configured -/
  outputs : OutputKind → Option OutputSettings

namespace SafeOutputs

/-- The settings of an empty section. -/
def empty : SafeOutputs := ⟨none, false, none, fun _ => none⟩

instance : Inhabited SafeOutputs := ⟨empty⟩

/-- The settings with one more kind. -/
def insert (s : SafeOutputs) (kind : OutputKind) (settings : OutputSettings) :
    SafeOutputs :=
  { s with outputs := fun k => if k = kind then some settings else s.outputs k }

/-- Whether a kind is configured. -/
def has (s : SafeOutputs) (kind : OutputKind) : Bool := (s.outputs kind).isSome

/-- The configured kinds, in the order in which they are performed. -/
def kinds (s : SafeOutputs) : List OutputKind := OutputKind.all.filter s.has

/-- The configured kinds of a category. -/
def kindsIn (s : SafeOutputs) (category : Category) : List OutputKind :=
  s.kinds.filter fun kind => kind.category = category

/-- Whether no kind is configured. -/
def isEmpty (s : SafeOutputs) : Bool := s.kinds.isEmpty

/-- The number of items of a kind that are performed; zero for any number. -/
def limit (s : SafeOutputs) (kind : OutputKind) : Nat :=
  ((s.outputs kind).bind (·.max)).getD kind.defaultMax

/-! ### Settings of the handlers -/

/-- A member with a text, if there is one. -/
def textMember (key : String) (text : Option String) : List (String × Json) :=
  (text.map fun t => (key, .string t)).toList

/-- The settings of a kind as its handler gets them, with the limit in effect. -/
def handlerEntry (settings : OutputSettings) (limit : Nat) : Json :=
  .object
    ((if settings.labels = [] then []
      else [("labels", .array (settings.labels.map .string))]) ++
      [("max", .number limit)] ++ textMember "target" settings.target ++
      textMember "target-repo" settings.targetRepo ++
      textMember "title-prefix" settings.titlePrefix)

/-- The settings of those of some kinds that are configured, by output type. -/
def handlerEntries (s : SafeOutputs) (kinds : List OutputKind) : Dictionary Json :=
  .ofList (kinds.filterMap fun kind =>
    (s.outputs kind).map fun settings =>
      (kind.outputType, handlerEntry settings (s.limit kind)))

/-- The settings of those of some kinds that are configured, as JSON. -/
def handlerConfig (s : SafeOutputs) (kinds : List OutputKind) : String :=
  (Json.object (s.handlerEntries kinds).entries).render

/-! ### Tokens -/

/-- The token of the shared handler: that of the section, or of the workflow, or the
default one. -/
def standardToken (s : SafeOutputs) (workflowToken : Option String) : String :=
  (s.githubToken.or workflowToken).getD Names.defaultSafeOutputsToken

/-- The token of a kind with a step of its own: its own one, or else the standard one. -/
def kindToken (s : SafeOutputs) (kind : OutputKind) (workflowToken : Option String) :
    String :=
  ((s.outputs kind).bind (·.githubToken)).getD (s.standardToken workflowToken)

/-- The token of the project handler: the first one that a project kind names. Only in
lenient mode there is a default for it. -/
def projectToken (s : SafeOutputs) (strict : Bool) : Except ConfigError String :=
  let kinds := s.kindsIn .project
  match kinds.findSome? fun kind => (s.outputs kind).bind (·.githubToken) with
  | some token => .ok token
  | none =>
    match kinds.head? with
    | some kind =>
      if strict then .error (.missingProjectToken kind.key)
      else .ok Names.defaultProjectToken
    | none => .ok Names.defaultProjectToken

/-! ### Reading -/

/-- A value that is not what its place demands: its description. -/
def mismatch {α : Type} (v : Yaml.Value) (expected : String) : Except String α :=
  .error ("invalid type: " ++ v.untag.unexpected ++ ", expected " ++ expected)

/-- A number of items. -/
def readLimit (v : Yaml.Value) : Except String Nat :=
  match v.untag with
  | .number (.int n) =>
    if 0 ≤ n ∧ n.toNat < Nat.pow 2 32 then .ok n.toNat
    else .error ("invalid value: " ++ v.untag.unexpected ++ ", expected u32")
  | _ => mismatch v "u32"

/-- A text. -/
def readText (v : Yaml.Value) : Except String String :=
  match v.untag with
  | .string s => .ok s
  | _ => mismatch v "a string"

/-- A list of texts; null is the empty one. -/
def readTexts (v : Yaml.Value) : Except String (List String) :=
  match v.untag with
  | .sequence items => items.mapM readText
  | .null => .ok []
  | _ => mismatch v "a sequence"

/-- What a reader gives, or nothing for null. -/
def readOptional {α : Type} (read : Yaml.Value → Except String α) (v : Yaml.Value) :
    Except String (Option α) :=
  match v with
  | .null => .ok none
  | v => some <$> read v

/-- The keys of the settings of a kind. -/
def settingKeys : List String :=
  ["max", "github-token", "title-prefix", "labels", "target", "target-repo"]

/-- The settings with one more entry. An unknown key is passed over. -/
def readSetting (settings : OutputSettings) (key : String) (v : Yaml.Value) :
    Except String OutputSettings := do
  if key = "max" then pure { settings with max := ← readOptional readLimit v }
  else if key = "github-token" then
    pure { settings with githubToken := ← readOptional readText v }
  else if key = "title-prefix" then
    pure { settings with titlePrefix := ← readOptional readText v }
  else if key = "labels" then pure { settings with labels := ← readTexts v }
  else if key = "target" then pure { settings with target := ← readOptional readText v }
  else if key = "target-repo" then
    pure { settings with targetRepo := ← readOptional readText v }
  else pure settings

/-- The settings that the entries of a mapping denote; `seen` are the keys before. -/
def readSettings (seen : List String) (settings : OutputSettings) :
    List (Yaml.Value × Yaml.Value) → Except String OutputSettings
  | [] => .ok settings
  | (k, v) :: rest => do
    match k.untag with
    | .string key =>
      if key ∈ settingKeys ∧ key ∈ seen then
        .error ("duplicate field \x60" ++ key ++ "\x60")
      else readSettings (key :: seen) (← readSetting settings key v) rest
    | _ => mismatch k "field identifier"

/-- The settings of a kind that a value denotes. -/
def readKind (v : Yaml.Value) : Except String OutputSettings :=
  match v.untag with
  | .mapping entries => readSettings [] .default entries
  | .null => .ok .default
  | _ => mismatch v "struct SafeOutputTypeConfig"

/-- A text among the settings of the section. -/
def readSectionText (key : String) : Yaml.Value → Except ConfigError (Option String)
  | .null => .ok none
  | .string s => .ok (some s)
  | _ => .error (.invalidSafeOutputSetting key "a string")

/-- The settings with one more entry of the section. -/
def addEntry (s : SafeOutputs) (k v : Yaml.Value) : Except ConfigError SafeOutputs :=
  let key := k.asString?.getD ""
  if key = "github-token" then do
    pure { s with githubToken := ← readSectionText key v }
  else if key = "runs-on" then do
    pure { s with runsOn := ← readSectionText key v }
  else if key = "staged" then
    match v, v.asBool? with
    | .null, _ => .ok { s with staged := false }
    | _, some staged => .ok { s with staged }
    | _, none => .error (.invalidSafeOutputSetting key "a boolean")
  else
    match OutputKind.ofKey? key with
    | none => .error (.unknownSafeOutput key)
    | some kind =>
      match readKind v with
      | .ok settings => .ok (s.insert kind settings)
      | .error reason => .error (.unknownSafeOutput (key ++ ": " ++ reason))

/-- The settings that a section denotes: a mapping, or null. -/
def ofValue : Yaml.Value → Except ConfigError SafeOutputs
  | .mapping entries => entries.foldlM (fun s e => s.addEntry e.1 e.2) empty
  | .null => .ok empty
  | v => .error (.unknownSafeOutput v.describe)

end SafeOutputs

end AgentPipeline
