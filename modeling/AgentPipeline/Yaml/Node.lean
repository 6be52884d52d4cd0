import AgentPipeline.Yaml.Token
import AgentPipeline.Dictionary

/-!
# Nodes of a document

The tokens of a document form a tree of **nodes**: scalars, sequences, mappings, and
aliases of nodes that carry an anchor. A node may be given properties in front of it, an
anchor and a tag. Where a node is missing, at a key without a value for instance, stands
an empty plain scalar.

An anchor is known by a number: how many names were anchored before its own. A name that
is anchored again gets a new number in the same way, which another name may then share;
an alias means the last node with the number of its name.

## Main definitions

* `Node`, `Properties`: the tree.
* `NodeReader`: readers of nodes from tokens.
* `Stream.root?`: the root of the only document of a stream.
-/

namespace AgentPipeline.Yaml

/-- What may be written in front of a node. -/
structure Properties where
  anchor : Option Nat
  tag : Option Tag
  deriving Repr, DecidableEq, Inhabited

/-- A node of a document. -/
inductive Node where
  | scalar (properties : Properties) (style : Style) (text : String)
  | sequence (properties : Properties) (items : List Node)
  | mapping (properties : Properties) (entries : List (Node × Node))
  | alias (anchor : Nat)
  deriving Repr, Inhabited

namespace Node

/-- The node that stands where one is missing. -/
def missing (properties : Properties) : Node := .scalar properties .plain ""

/-- The node without properties that stands where one is missing. -/
def empty : Node := missing ⟨none, none⟩

/-- The properties of a node. An alias has none. -/
def properties : Node → Properties
  | .scalar p _ _ => p
  | .sequence p _ => p
  | .mapping p _ => p
  | .alias _ => ⟨none, none⟩

mutual

/-- The nodes with an anchor in a tree, in the order in which they start. -/
def anchored : Node → List (Nat × Node)
  | .scalar p style text => (p.anchor.map (·, .scalar p style text)).toList
  | .sequence p items => (p.anchor.map (·, .sequence p items)).toList ++ anchoredItems items
  | .mapping p entries =>
    (p.anchor.map (·, .mapping p entries)).toList ++ anchoredEntries entries
  | .alias _ => []

/-- The nodes with an anchor in a list of trees. -/
def anchoredItems : List Node → List (Nat × Node)
  | [] => []
  | n :: ns => n.anchored ++ anchoredItems ns

/-- The nodes with an anchor in the entries of a mapping. -/
def anchoredEntries : List (Node × Node) → List (Nat × Node)
  | [] => []
  | (k, v) :: rest => k.anchored ++ v.anchored ++ anchoredEntries rest

end

mutual

/-- The size of a tree: one for a scalar or an alias, two for a collection besides what is
in it. -/
def weight : Node → Nat
  | .scalar _ _ _ => 1
  | .sequence _ items => 2 + weightItems items
  | .mapping _ entries => 2 + weightEntries entries
  | .alias _ => 1

/-- The size of a list of trees. -/
def weightItems : List Node → Nat
  | [] => 0
  | n :: ns => n.weight + weightItems ns

/-- The size of the entries of a mapping. -/
def weightEntries : List (Node × Node) → Nat
  | [] => 0
  | (k, v) :: rest => k.weight + v.weight + weightEntries rest

end

end Node

/-! ### Reading nodes -/

/-- How far the reading of nodes has come: the tokens that follow, and the numbers of the
anchored names. -/
structure Cursor where
  tokens : List YamlToken
  anchors : Dictionary Nat

/-- Readers of nodes. -/
abbrev NodeReader := StateT Cursor Option

namespace NodeReader

/-- The token that comes next. -/
def peek : NodeReader (Option YamlToken) := do
  pure (← get).tokens.head?

/-- Pass over a token. -/
def pass : NodeReader Unit :=
  modify fun s => { s with tokens := s.tokens.drop 1 }

/-- Whether one of some tokens comes next. -/
def sees (tokens : List YamlToken) : NodeReader Bool := do
  pure ((← peek).any tokens.contains)

/-- Pass over a token, which has to come next. -/
def expect (token : YamlToken) : NodeReader Unit := do
  if ← sees [token] then pass else failure

/-- Read an anchor if one comes next, and number it. -/
def readAnchor : NodeReader (Option String) := do
  match ← peek with
  | some (.anchor name) => do pass; pure (some name)
  | _ => pure none

/-- What the handles of tags stand for. -/
abbrev Handles := List (String × List UInt8)

/-- A tag whose handle stands for what the document declares. -/
def tag? (handles : Handles) (handle : String) (suffix : List UInt8) : Option Tag :=
  if handle = "" then some ⟨suffix⟩ else (handles.lookup handle).map fun bytes => ⟨bytes ++ suffix⟩

/-- Read a tag if one comes next. -/
def readTag (handles : Handles) : NodeReader (Option Tag) := do
  match ← peek with
  | some (.tag handle suffix) => do
    pass
    match tag? handles handle suffix with
    | some tag => pure (some tag)
    | none => failure
  | _ => pure none

/-- Read the properties of a node: an anchor and a tag, in any order. -/
def readProperties (handles : Handles) : NodeReader Properties := do
  let before ← readAnchor
  let tag ← readTag handles
  let name ←
    if before.isNone && tag.isSome then readAnchor else pure before
  match name with
  | none => pure ⟨none, tag⟩
  | some name => do
    let number := (← get).anchors.size
    modify fun s => { s with anchors := s.anchors.insert name number }
    pure ⟨some number, tag⟩

/-- What ends an item of a block sequence that is not written. -/
def itemEnds : List YamlToken := [.blockEntry, .blockEnd]

/-- What ends a key or a value of a block mapping that is not written. -/
def entryEnds : List YamlToken := [.key, .value, .blockEnd]

/-- What ends a value between square brackets that is not written. -/
def flowItemEnds : List YamlToken := [.flowEntry, .flowSequenceEnd]

/-- What ends a value between curly brackets that is not written. -/
def flowEntryEnds : List YamlToken := [.flowEntry, .flowMappingEnd]

/-- The node that a reader gives, or an empty one if one of some tokens comes next. -/
def orEmpty (ends : List YamlToken) (read : NodeReader Node) : NodeReader Node := do
  if ← sees ends then pure .empty else read

/-- The value behind a colon, or an empty one if there is no colon or nothing behind
it. -/
def valueOrEmpty (ends : List YamlToken) (read : NodeReader Node) : NodeReader Node := do
  if ← sees [.value] then do pass; orEmpty ends read else pure .empty

/-- Pass over the comma in front of an item between brackets, unless the item is the
first one or the closing bracket comes next. -/
def separator (first : Bool) (closing : YamlToken) : NodeReader Unit := do
  if !first && !(← sees [closing]) then expect .flowEntry

variable (handles : Handles)

mutual

/-- Read a node. Block collections may start if `block` holds, and a sequence whose dashes
stand in the column of the mapping around it if `aligned` holds. -/
def node (block aligned : Bool) : Nat → NodeReader Node
  | 0 => failure
  | fuel + 1 => do
    if let some (.alias name) ← peek then
      pass
      match (← get).anchors.get? name with
      | some number => return .alias number
      | none => failure
    let p ← readProperties handles
    match ← peek with
    | some (.scalar style text) =>
      pass
      pure (.scalar p style text)
    | some .flowSequenceStart => do
      pass
      pure (.sequence p (← flowItems true fuel))
    | some .flowMappingStart => do
      pass
      pure (.mapping p (← flowEntries true fuel))
    | some .blockEntry =>
      if aligned then pure (.sequence p (← alignedItems fuel))
      else if p.anchor.isSome || p.tag.isSome then pure (.missing p)
      else failure
    | some .blockSequenceStart =>
      if block then do
        pass
        pure (.sequence p (← blockItems fuel))
      else if p.anchor.isSome || p.tag.isSome then pure (.missing p)
      else failure
    | some .blockMappingStart =>
      if block then do
        pass
        pure (.mapping p (← blockEntries fuel))
      else if p.anchor.isSome || p.tag.isSome then pure (.missing p)
      else failure
    | _ => if p.anchor.isSome || p.tag.isSome then pure (.missing p) else failure

/-- Read the items of a block sequence up to its end. -/
def blockItems : Nat → NodeReader (List Node)
  | 0 => failure
  | fuel + 1 => do
    if ← sees [.blockEnd] then do pass; pure []
    else do
      expect .blockEntry
      let item ← orEmpty itemEnds (node true false fuel)
      pure (item :: (← blockItems fuel))

/-- Read the items of a sequence whose dashes stand in the column of the mapping around
it. -/
def alignedItems : Nat → NodeReader (List Node)
  | 0 => failure
  | fuel + 1 => do
    if ← sees [.blockEntry] then do
      pass
      let item ← orEmpty (.blockEntry :: entryEnds) (node true false fuel)
      pure (item :: (← alignedItems fuel))
    else pure []

/-- Read the entries of a block mapping up to its end. -/
def blockEntries : Nat → NodeReader (List (Node × Node))
  | 0 => failure
  | fuel + 1 => do
    if ← sees [.blockEnd] then do pass; pure []
    else do
      expect .key
      let key ← orEmpty entryEnds (node true true fuel)
      let value ← valueOrEmpty entryEnds (node true true fuel)
      pure ((key, value) :: (← blockEntries fuel))

/-- Read the items between square brackets. An item with a colon in it is a mapping of
one entry. -/
def flowItems (first : Bool) : Nat → NodeReader (List Node)
  | 0 => failure
  | fuel + 1 => do
    separator first .flowSequenceEnd
    if ← sees [.flowSequenceEnd] then do pass; pure []
    else if ← sees [.key] then do
      pass
      let key ←
        if ← sees (.value :: flowItemEnds) then do pass; pure .empty
        else node false false fuel
      let value ← valueOrEmpty flowItemEnds (node false false fuel)
      pure (.mapping ⟨none, none⟩ [(key, value)] :: (← flowItems false fuel))
    else do
      let item ← node false false fuel
      pure (item :: (← flowItems false fuel))

/-- Read the entries between curly brackets. A key may stand alone. -/
def flowEntries (first : Bool) : Nat → NodeReader (List (Node × Node))
  | 0 => failure
  | fuel + 1 => do
    separator first .flowMappingEnd
    if ← sees [.flowMappingEnd] then do pass; pure []
    else if ← sees [.key] then do
      pass
      let key ← orEmpty (.value :: flowEntryEnds) (node false false fuel)
      let value ← valueOrEmpty flowEntryEnds (node false false fuel)
      pure ((key, value) :: (← flowEntries false fuel))
    else do
      let key ← node false false fuel
      pure ((key, .empty) :: (← flowEntries false fuel))

end

end NodeReader

/-! ### Streams -/

namespace Stream

/-- The handles of tags that every document has, unless it declares them itself. -/
def standardHandles : NodeReader.Handles :=
  [("!", (Tag.ofText "!").bytes), ("!!", (Tag.ofText Tag.coreAddress).bytes)]

/-- The versions of YAML that a document may declare. -/
def isKnownVersion (major minor : Nat) : Bool :=
  major == 1 && (minor == 1 || minor == 2)

/-- Read the directives in front of a document: the handles they declare, and the tokens
that follow. A version or a handle can be declared once. -/
def directives (versioned : Bool) (handles : NodeReader.Handles) :
    List YamlToken → Option (NodeReader.Handles × List YamlToken)
  | .versionDirective major minor :: rest =>
    if versioned || !isKnownVersion major minor then none else directives true handles rest
  | .tagDirective handle expansion :: rest =>
    if (handles.lookup handle).isSome then none
    else directives versioned (handles ++ [(handle, expansion)]) rest
  | tokens => some (handles, tokens)

/-- Whether a document without content ends in front of some tokens. -/
def endsContent : List YamlToken → Bool
  | [] => true
  | .versionDirective _ _ :: _ => true
  | .tagDirective _ _ :: _ => true
  | .documentStart :: _ => true
  | .documentEnd :: _ => true
  | _ => false

/-- Read the root of a document from some tokens, and what follows it. -/
def content? (handles : NodeReader.Handles) (tokens : List YamlToken) :
    Option (Node × List YamlToken) := do
  let fuel := 3 * tokens.length + 3
  let (root, cursor) ← (NodeReader.node handles true false fuel).run ⟨tokens, .empty⟩
  pure (root, cursor.tokens)

/-- The root of the only document in a stream of tokens; `some none` for a stream without
documents. -/
def root? : List YamlToken → Option (Option Node)
  | [] => some none
  | token :: tokens => do
    let (root, rest) ←
      if endsContent [token] && token != .documentEnd then do
        let (declared, tokens) ← directives false [] (token :: tokens)
        match tokens with
        | .documentStart :: tokens =>
          if endsContent tokens then some (.empty, tokens)
          else content? (declared ++ standardHandles) tokens
        | _ => none
      else content? standardHandles (token :: tokens)
    if rest.all (· == .documentEnd) then some (some root) else none

end Stream

end AgentPipeline.Yaml
