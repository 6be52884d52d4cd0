import AgentPipeline.Permission.Scope
import AgentPipeline.Yaml.Value
import AgentPipeline.Error

/-!
# Permissions

The permissions of a job are a shorthand or an explicit grant of levels to scopes. An
explicit grant is a function on the scopes, so two grants of the same levels are equal
and the order in which they were made leaves no trace.

Merging two permissions takes the higher of two shorthands; an explicit grant replaces a
shorthand; a shorthand other than `none` fills the scopes that an explicit grant leaves
open; and two explicit grants give the higher level in each scope.

## Main definitions

* `Permissions`, with `get`, `set`, `merge`.
* `Permissions.writeScopes`: the scopes that may be written, identity tokens apart.
* `Permissions.render`: the entry of a job.
* `Permissions.ofValue`: the permissions that a YAML value denotes.
-/

namespace AgentPipeline

/-- The levels that are granted, scope by scope. -/
abbrev Grants := Scope → Option Level

/-- The permissions of a job. -/
inductive Permissions where
  | shorthand (s : Shorthand)
  | explicit (grants : Grants)

namespace Permissions

/-- The explicit grant of nothing. -/
def empty : Permissions := .explicit fun _ => none

instance : Inhabited Permissions := ⟨empty⟩

/-- The grant of one more level. -/
def grant (grants : Grants) (scope : Scope) (level : Level) : Grants :=
  fun s => if s = scope then some level else grants s

/-- Grant a level in a scope. A shorthand gives way to the explicit grant. The scope
`id-token` has no level read, and a grant of it is passed over. -/
def set (p : Permissions) (scope : Scope) (level : Level) : Permissions :=
  if level = .read ∧ !scope.supportsRead then p
  else
    match p with
    | .explicit grants => .explicit (grant grants scope level)
    | .shorthand _ => .explicit (grant (fun _ => none) scope level)

/-- The explicit grant of a list of levels, the later ones over the earlier ones. -/
def ofScopes (l : List (Scope × Level)) : Permissions :=
  l.foldl (fun p e => p.set e.1 e.2) empty

/-- Read access to the contents. -/
def contentsRead : Permissions := ofScopes [(.contents, .read)]

/-- The level that is granted in a scope. -/
def get (p : Permissions) (scope : Scope) : Option Level :=
  match p with
  | .shorthand s => s.levelFor scope
  | .explicit grants => grants scope

/-- The higher of two levels that may be missing. -/
def maxLevel : Option Level → Option Level → Option Level
  | none, b => b
  | a, none => a
  | some a, some b => some (a.max b)

/-- The permissions with others merged into them. -/
def merge : Permissions → Permissions → Permissions
  | .shorthand a, .shorthand b => .shorthand (a.max b)
  | .shorthand _, .explicit grants => .explicit grants
  | .explicit grants, .shorthand .none => .explicit grants
  | .explicit grants, .shorthand s =>
    .explicit fun scope =>
      match grants scope with
      | some level => some level
      | none => s.levelFor scope
  | .explicit a, .explicit b => .explicit fun scope => maxLevel (a scope) (b scope)

/-- Whether the permissions are a shorthand. -/
def isShorthand : Permissions → Bool
  | .shorthand _ => true
  | .explicit _ => false

/-- The scopes with an explicit grant, and the levels granted. -/
def entries (grants : Grants) : List (Scope × Level) :=
  Scope.all.filterMap fun scope => (grants scope).map (scope, ·)

/-- Whether the permissions are the explicit grant of nothing. -/
def isEmpty : Permissions → Bool
  | .shorthand _ => false
  | .explicit grants => (entries grants).isEmpty

/-- The scopes that may be written. Identity tokens give no access to the repository and
do not count. -/
def writeScopes (p : Permissions) : List Scope :=
  Scope.all.filter fun scope => scope ≠ .idToken ∧ p.get scope = some .write

/-- Whether any scope may be written. -/
def hasWrite (p : Permissions) : Bool :=
  !p.writeScopes.isEmpty

/-- The entry of a job. -/
def render : Permissions → String
  | .shorthand s => "permissions: " ++ s.name
  | .explicit grants =>
    match entries grants with
    | [] => "permissions: \x7b\x7d"
    | es =>
      "permissions:" ++
        String.join (es.map fun e => "\n  " ++ e.1.name ++ ": " ++ e.2.name)

/-! ### Reading -/

/-- The permissions with one more entry of a mapping, whose key and value are the names
of a scope and of a level that it has. -/
def addEntry (p : Permissions) (key value : Yaml.Value) : Except ConfigError Permissions :=
  let scopeName := key.asString?.getD ""
  let levelName := value.asString?.getD ""
  match Scope.ofName? scopeName, Level.ofName? levelName with
  | some scope, some level =>
    if level = .read ∧ !scope.supportsRead then
      .error (.invalidPermission scopeName levelName)
    else .ok (p.set scope level)
  | _, _ => .error (.invalidPermission scopeName levelName)

/-- The permissions that a value denotes: the name of a shorthand, or a mapping of scopes
to levels. -/
def ofValue : Yaml.Value → Except ConfigError Permissions
  | .string s =>
    match Shorthand.ofName? s with
    | some level => .ok (.shorthand level)
    | none => .error (.invalidPermission "permissions" s)
  | .mapping es => es.foldlM (fun p e => p.addEntry e.1 e.2) empty
  | v => .error (.invalidPermission "permissions" v.describe)

end Permissions

end AgentPipeline
