import AgentPipeline.Pin.Version
import AgentPipeline.Error

/-!
# Pinned actions

A step names an action by its repository and a commit, so that nobody can change what
the action does afterwards. The commit comes from a look-up of the caller, or else from a
catalog: the entry of the requested version, or the first one with the same major version.
The catalog lists the versions of a repository from the highest to the lowest, which makes
the first one the highest.

## Main definitions

* `Pin`, `sortCatalog`, `catalog`: known commits and their order.
* `Resolver.resolve`: the reference to an action.
-/

namespace AgentPipeline

/-- A version of an action with its commit. -/
structure Pin where
  repo : String
  version : String
  sha : String
  deriving Repr, DecidableEq, Inhabited

namespace Pin

/-- The reference to an action at a commit, with its version as a comment. -/
def reference (repo sha version : String) : String :=
  repo ++ "@" ++ sha ++ " # " ++ version

/-- The order of a catalog: by repository, and from the highest version to the lowest. -/
def order (a b : Pin) : Ordering :=
  (compare a.repo b.repo).then (Version.compare b.version a.version)

/-- The pins in the order of a catalog. -/
def sortCatalog (pins : List Pin) : List Pin :=
  pins.mergeSort fun a b => (order a b).isLE

/-- The pins that come with the library. -/
def bundled : List Pin :=
  [⟨"actions/checkout", "v4.2.2", "11bd71901bbe5b1630ceea73d27597364c9af683"⟩,
    ⟨"actions/checkout", "v5.0.0", "08c6903cd8c0fde910a37f88322edcfb5dd907a8"⟩,
    ⟨"actions/github-script", "v7.0.1", "60a0d83039c74a4aee543508d2ffcb1c3799cdea"⟩,
    ⟨"actions/github-script", "v8", "ed597411d8f924073f98dfc5c65a23a2325f34cd"⟩,
    ⟨"actions/upload-artifact", "v4.6.2", "ea165f8d65b6e75b540449e92b4886f43607fa02"⟩,
    ⟨"actions/download-artifact", "v5.0.0", "634f93cb2916e3fdff6788551b99b062d0335ce0"⟩,
    ⟨"actions/setup-node", "v4.4.0", "49933ea5288caeca8642d1e84afbd3f7d6820020"⟩]

/-- The bundled pins in the order of a catalog. -/
def catalog : List Pin := sortCatalog bundled

end Pin

/-- A look-up of the commit of a repository's version. -/
abbrev ShaLookup := String → String → Option String

/-- How the references to actions are found. -/
structure Resolver where
  /-- whether an action without a known commit is an error -/
  strict : Bool
  /-- the look-up that goes before the catalog -/
  lookup : ShaLookup
  /-- the known commits -/
  catalog : List Pin

namespace Resolver

/-- Run through the candidates for a version. The first pin of this version ends the run;
until then the first one with the same major version is kept for the case that there is
none. -/
def scan (version : String) : Option Pin → List Pin → Option Pin
  | approximate, [] => approximate
  | approximate, pin :: rest =>
    if pin.version = version then some pin
    else if approximate.isNone && Version.sameMajor pin.version version then
      scan version (some pin) rest
    else scan version approximate rest

/-- The pin that is used for a version, if there is one among the candidates. -/
def choose (version : String) (candidates : List Pin) : Option Pin :=
  scan version none candidates

/-- The reference to a version of an action. Without a known commit it is an error in
strict mode, and otherwise names the version itself. -/
def resolve (r : Resolver) (repo version : String) : Except CompileError String :=
  match r.lookup repo version with
  | some sha => .ok (Pin.reference repo sha version)
  | none =>
    match choose version (r.catalog.filter (·.repo == repo)) with
    | some pin => .ok (Pin.reference repo pin.sha pin.version)
    | none =>
      if r.strict then .error (.unpinnedAction repo version)
      else .ok (repo ++ "@" ++ version)

end Resolver

end AgentPipeline
