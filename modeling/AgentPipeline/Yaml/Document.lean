import AgentPipeline.Yaml.Node
import AgentPipeline.Yaml.Plain

/-!
# Reading documents

A document is read against what is expected of it. Where a text is expected, a scalar
gives the text as it is written; where any value is expected, its spelling and its tag
decide what it is. Collections are nested at most 128 deep, and the number of aliases that
are followed is at most a hundred times the size of the document, so that aliases of
aliases cannot make a small document large.

## Main definitions

* `Document`, `Document.parse?`: a document and its text.
* `Reader`: readers of nodes, which count the aliases they follow.
* `Reader.text`, `Reader.boolean`, `Reader.natural`, `Reader.value`, `Reader.content`,
  `Reader.items`, `Reader.entries`, `Reader.optional`: what a node can be read as.
* `Document.read?`: the result of a reader on a document.
-/

namespace AgentPipeline.Yaml

/-- A document: its root, unless it is void, and its nodes with an anchor. -/
structure Document where
  root : Option Node
  anchored : List (Nat × Node)
  deriving Repr, Inhabited

namespace Document

/-- The document with a root. -/
def ofRoot (root : Option Node) : Document :=
  ⟨root, (root.map Node.anchored).getD []⟩

/-- The document that a text holds. -/
def parse? (text : String) : Option Document := do
  let cs ← decode text.toList
  let tokens ← Scanner.tokens? cs
  ofRoot <$> Stream.root? tokens

/-- The node that an alias means: the last one with its number. -/
def target? (d : Document) (anchor : Nat) : Option Node :=
  (d.anchored.reverse.find? (·.1 == anchor)).map (·.2)

/-- The number of aliases that may be followed. -/
def aliasLimit (d : Document) : Nat :=
  100 * ((d.root.map Node.weight).getD 1)

end Document

/-- Readers of nodes in a document. They keep the number of aliases that may still be
followed. -/
abbrev Reader (α : Type) := ReaderT Document (StateT Nat Option) α

namespace Reader

/-- Follow a node if it is an alias. -/
def follow (n : Node) : Reader Node := do
  match n with
  | .alias anchor =>
    match ← get with
    | 0 => failure
    | left + 1 => do
      set left
      match (← read).target? anchor with
      | some target => pure target
      | none => failure
  | n => pure n

/-! ### Scalars -/

/-- The text of a scalar. -/
def text (n : Node) : Reader String := do
  match ← follow n with
  | .scalar _ _ text => pure text
  | _ => failure

/-- The text of a scalar that can denote a value of a core type: a plain one, or a literal
block with the tag of the type. -/
def plainText (type : String) (n : Node) : Reader String := do
  match ← follow n with
  | .scalar _ .plain text => pure text
  | .scalar p .literal text => if p.tag = some (Tag.core type) then pure text else failure
  | _ => failure

/-- A boolean. -/
def boolean (n : Node) : Reader Bool := do
  match Plain.bool? (← plainText "bool" n) with
  | some b => pure b
  | none => failure

/-- A natural number below a bound. -/
def natural (bound : Nat) (n : Node) : Reader Nat := do
  match Plain.nat? (← plainText "int" n).toList with
  | some m => if m < bound then pure m else failure
  | none => failure

/-- Whether a node stands for nothing: an empty plain scalar or a word for null. With the
tag of null only a word is allowed, and with another tag the node is a value. -/
def isNothing (n : Node) : Reader Bool :=
  match n with
  | .scalar p .plain text =>
    if p.tag = some (Tag.core "null") then
      if Plain.isNullWord text then pure true else failure
    else pure (p.tag.isNone && (text == "" || Plain.isNullWord text))
  | _ => pure false

/-- What a reader gives, unless the node stands for nothing. -/
def optional {α : Type} (inner : Node → Reader α) (n : Node) : Reader (Option α) := do
  let n ← follow n
  if ← isNothing n then pure none else some <$> inner n

/-! ### Values -/

/-- The value that the spelling of a scalar denotes. Only plain scalars denote anything
but strings. -/
def spelled (style : Style) (text : String) : Option Value :=
  if style = .plain then Plain.toValue? text else some (.string text)

/-- The value of a scalar. The tags of the core types demand a spelling, a local tag leaves
it free, and with any other tag the scalar is a string. -/
def scalarValue (p : Properties) (style : Style) (text : String) : Option Value :=
  match p.tag with
  | none => spelled style text
  | some tag =>
    if tag = Tag.core "bool" then .bool <$> Plain.bool? text
    else if tag = Tag.core "int" then
      match Plain.int? text.toList with
      | some (.int n) => some (.number (.int n))
      | _ => none
    else if tag = Tag.core "float" then (.number <| .float ·) <$> Plain.double? text
    else if tag = Tag.core "null" then
      if Plain.isNullWord text then some .null else none
    else if tag.isLocal then spelled style text
    else some (.string text)

/-- What the nodes of a value may be. -/
inductive Purpose where
  /-- a value to be kept: local tags are part of it, and keys must differ -/
  | value
  /-- the content of a section: there are no local tags, and keys may repeat -/
  | content
  deriving Repr, DecidableEq

/-- A value under the local tag of its node. -/
def underTag (purpose : Purpose) (p : Properties) (v : Value) : Reader Value :=
  match p.tag.bind Tag.localName?, purpose with
  | none, _ => pure v
  | some tag, .value => pure (.tagged tag v)
  | some _, .content => failure

/-- A value for a purpose, with collections nested at most `depth` deep. -/
def valueFor (purpose : Purpose) : Nat → Node → Reader Value
  | depth, n => do
    match ← follow n with
    | .scalar p style text =>
      match scalarValue p style text with
      | some v => underTag purpose p v
      | none => failure
    | .sequence p items =>
      match depth with
      | 0 => failure
      | depth + 1 =>
        underTag purpose p (.sequence (← items.mapM (valueFor purpose depth)))
    | .mapping p entries =>
      match depth with
      | 0 => failure
      | depth + 1 => do
        let entries ← entries.mapM fun e => do
          pure (← valueFor purpose depth e.1, ← valueFor purpose depth e.2)
        if purpose = .value ∧ !Value.keysDistinct entries then failure
        underTag purpose p (.mapping entries)
    | .alias _ => failure

/-- A value with collections nested at most `depth` deep. -/
def value (depth : Nat) (n : Node) : Reader Value := valueFor .value depth n

/-- The content of a section with collections nested at most `depth` deep. -/
def content (depth : Nat) (n : Node) : Reader Value := valueFor .content depth n

/-! ### Collections -/

/-- An empty plain scalar, which stands for an empty collection as well. -/
def isEmptyScalar : Node → Bool
  | .scalar _ .plain "" => true
  | _ => false

/-- The items of a sequence. -/
def items (n : Node) : Reader (List Node) := do
  match ← follow n with
  | .sequence _ items => pure items
  | n => if isEmptyScalar n then pure [] else failure

/-- The entries of a mapping whose keys are texts. -/
def entries (n : Node) : Reader (List (String × Node)) := do
  match ← follow n with
  | .mapping _ entries => entries.mapM fun e => do pure (← text e.1, e.2)
  | n => if isEmptyScalar n then pure [] else failure

end Reader

/-- The result of a reader on the root of a document; a void document counts as an empty
scalar. -/
def Document.read? {α : Type} (d : Document) (reader : Node → Reader α) : Option α :=
  ((reader (d.root.getD .empty)).run d).run' d.aliasLimit

end AgentPipeline.Yaml
