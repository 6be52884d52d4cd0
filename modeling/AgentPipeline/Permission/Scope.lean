/-!
# Permission scopes and levels

The token of a job holds a **level** of access, none, read or write, in each of a fixed
number of **scopes**. A **shorthand** gives one level to all scopes at once. The scope
`id-token` has no level read: its only use is to mint identity tokens.

## Main definitions

* `Scope`, `Level`, `Shorthand`, with their names and the look-up by name.
* `Level.rank`, `Shorthand.rank`: the orders `none < read < write` and
  `none < read-all < write-all`.
* `Shorthand.levelFor`: the level that a shorthand gives to a scope.
-/

namespace AgentPipeline

/-- A name that nothing of a kind goes by. -/
structure UnknownName where
  /-- what the name should have been a name of -/
  kind : String
  name : String
  deriving Repr, DecidableEq, Inhabited

/-- The text of the error for an unknown name. -/
def UnknownName.message (e : UnknownName) : String :=
  "unknown " ++ e.kind ++ ": " ++ e.name

/-- What a look-up by name found, or the error for an unknown name. -/
def UnknownName.orElse {α : Type} (kind name : String) : Option α → Except UnknownName α
  | some a => .ok a
  | none => .error ⟨kind, name⟩

/-- A scope of the token of a job. -/
inductive Scope where
  | actions | attestations | checks | contents | deployments | discussions | idToken
  | issues | metadata | models | organizationPackages | organizationProjects | packages
  | pages | pullRequests | repositoryProjects | securityEvents | statuses
  deriving Repr, DecidableEq, Inhabited

namespace Scope

/-- All scopes, in the order of their names. -/
def all : List Scope :=
  [.actions, .attestations, .checks, .contents, .deployments, .discussions, .idToken,
    .issues, .metadata, .models, .organizationPackages, .organizationProjects, .packages,
    .pages, .pullRequests, .repositoryProjects, .securityEvents, .statuses]

/-- Every scope is listed. -/
theorem mem_all (s : Scope) : s ∈ all := by
  cases s <;> decide

/-- The name of a scope. -/
def name : Scope → String
  | .actions => "actions"
  | .attestations => "attestations"
  | .checks => "checks"
  | .contents => "contents"
  | .deployments => "deployments"
  | .discussions => "discussions"
  | .idToken => "id-token"
  | .issues => "issues"
  | .metadata => "metadata"
  | .models => "models"
  | .organizationPackages => "organization-packages"
  | .organizationProjects => "organization-projects"
  | .packages => "packages"
  | .pages => "pages"
  | .pullRequests => "pull-requests"
  | .repositoryProjects => "repository-projects"
  | .securityEvents => "security-events"
  | .statuses => "statuses"

/-- The scope of a name. -/
def ofName? (s : String) : Option Scope :=
  all.find? fun scope => scope.name == s

/-- The scope of a name, or the error for an unknown one. -/
def parse (s : String) : Except UnknownName Scope :=
  UnknownName.orElse "permission scope" s (ofName? s)

/-- Whether the scope has the level read. -/
def supportsRead : Scope → Bool
  | .idToken => false
  | _ => true

end Scope

/-- A level of access. -/
inductive Level where
  | none | read | write
  deriving Repr, DecidableEq, Inhabited

namespace Level

/-- The name of a level. -/
def name : Level → String
  | .none => "none"
  | .read => "read"
  | .write => "write"

/-- The level of a name. -/
def ofName? (s : String) : Option Level :=
  [Level.none, .read, .write].find? fun level => level.name == s

/-- The level of a name, or the error for an unknown one. -/
def parse (s : String) : Except UnknownName Level :=
  UnknownName.orElse "permission level" s (ofName? s)

/-- The place of a level in the order `none < read < write`. -/
def rank : Level → Nat
  | .none => 0
  | .read => 1
  | .write => 2

/-- The higher of two levels. -/
def max (a b : Level) : Level :=
  if a.rank < b.rank then b else a

end Level

/-- One level for all scopes. -/
inductive Shorthand where
  | none | readAll | writeAll
  deriving Repr, DecidableEq, Inhabited

namespace Shorthand

/-- The name of a shorthand. -/
def name : Shorthand → String
  | .none => "none"
  | .readAll => "read-all"
  | .writeAll => "write-all"

/-- The shorthand of a name. -/
def ofName? (s : String) : Option Shorthand :=
  [Shorthand.none, .readAll, .writeAll].find? fun shorthand => shorthand.name == s

/-- The shorthand of a name, or the error for an unknown one. -/
def parse (s : String) : Except UnknownName Shorthand :=
  UnknownName.orElse "permission shorthand" s (ofName? s)

/-- The place of a shorthand in the order `none < read-all < write-all`. -/
def rank : Shorthand → Nat
  | .none => 0
  | .readAll => 1
  | .writeAll => 2

/-- The higher of two shorthands. -/
def max (a b : Shorthand) : Shorthand :=
  if a.rank < b.rank then b else a

/-- The level that a shorthand stands for. -/
def level : Shorthand → Level
  | .none => .none
  | .readAll => .read
  | .writeAll => .write

/-- The level that a shorthand gives to a scope; none where the scope lacks it. -/
def levelFor (shorthand : Shorthand) (scope : Scope) : Option Level :=
  if shorthand.level = .read ∧ !scope.supportsRead then Option.none
  else some shorthand.level

end Shorthand

end AgentPipeline
