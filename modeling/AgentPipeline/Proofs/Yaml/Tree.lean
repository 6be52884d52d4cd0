import AgentPipeline.Proofs.Yaml.Node

/-!
# Reading collections from tokens

The readers of nodes are monotone: what they read with some fuel they read with more
(`NodeReader.run_node_of_le`), and they take the first ones of the tokens. A collection ends with a
token of its own (`NodeReader.builds_node`), so a sequence whose item is a collection does not end
with a scalar (`NodeReader.ne_scalar_of_item`).

The tokens of a collection mean the same in another place: where they are read as the item of a
sequence they are read as the value of an entry as well (`NodeReader.root?_entry`).
-/

namespace AgentPipeline.Yaml

/-- Whether a node is a sequence or a mapping. -/
def Node.isCollection : Node → Bool
  | .sequence _ _ => true
  | .mapping _ _ => true
  | _ => false

namespace NodeReader

variable {α β : Type} {handles : Handles} {r r' : NodeReader α} {f f' : α → NodeReader β}

/-- What a reader can do, another can do as well; and it leaves the last ones of the tokens. -/
def Grows (r r' : NodeReader α) : Prop :=
  ∀ s a s', r.run s = some (a, s') → r'.run s = some (a, s') ∧ s'.tokens <:+ s.tokens

namespace Grows

/-- Readers grow in sequence. -/
theorem bind (h : Grows r r') (hf : ∀ a, Grows (f a) (f' a)) : Grows (r >>= f) (r' >>= f') := by
  intro s b s₂ hrun
  rw [StateT.run_bind] at hrun
  obtain ⟨⟨a, s₁⟩, hr, hrun⟩ := Option.bind_eq_some_iff.mp hrun
  obtain ⟨hr', hsuffix⟩ := h s a s₁ hr
  obtain ⟨hf', hsuffix'⟩ := hf a s₁ b s₂ hrun
  refine ⟨?_, hsuffix'.trans hsuffix⟩
  rw [StateT.run_bind, hr']
  exact hf'

/-- A reader that takes nothing grows. -/
theorem pure (a : α) : Grows (pure a) (pure a) := by
  intro s b s' hrun
  obtain ⟨-, rfl⟩ := Prod.mk.inj (Option.some.inj hrun)
  exact ⟨hrun, List.suffix_refl _⟩

/-- A reader that fails can do nothing, so any other one can do what it can. -/
theorem failure : Grows (failure : NodeReader α) r' := nofun

/-- What starts with a failure can do nothing either. -/
theorem failure_bind {r' : NodeReader β} : Grows (Alternative.failure >>= f) r' := nofun

/-- Readers grow in both branches of a condition on something else than the tokens. -/
theorem ite {r₁ r₁' : NodeReader α} {P : Prop} [Decidable P] (h : Grows r r') (h₁ : Grows r₁ r₁') :
    Grows (if P then r else r₁) (if P then r' else r₁') := by
  split
  · exact h
  · exact h₁

/-- Looking at the next token grows. -/
theorem peek : Grows peek peek := by
  intro s b s' hrun
  obtain ⟨-, rfl⟩ := Prod.mk.inj (Option.some.inj hrun)
  exact ⟨hrun, List.suffix_refl _⟩

/-- Looking at the cursor grows. -/
theorem get : Grows (get : NodeReader Cursor) (get : NodeReader Cursor) := by
  intro s b s' hrun
  obtain ⟨-, rfl⟩ := Prod.mk.inj (Option.some.inj hrun)
  exact ⟨hrun, List.suffix_refl _⟩

/-- Noting an anchor takes no token. -/
theorem anchor (name : String) (number : Nat) :
    Grows (modify fun s => { s with anchors := s.anchors.insert name number } : NodeReader Unit)
      (modify fun s => { s with anchors := s.anchors.insert name number }) := by
  intro s b s' hrun
  obtain ⟨-, rfl⟩ := Prod.mk.inj (Option.some.inj hrun)
  exact ⟨hrun, List.suffix_refl _⟩

/-- Passing a token grows. -/
theorem pass : Grows pass pass := by
  intro s b s' hrun
  obtain ⟨-, rfl⟩ := Prod.mk.inj (Option.some.inj hrun)
  exact ⟨hrun, List.drop_suffix 1 _⟩

/-- Looking for some tokens grows. -/
theorem sees (ts : List YamlToken) : Grows (sees ts) (sees ts) := peek.bind fun _ => .pure _

/-- Passing one certain token grows. -/
theorem expect (t : YamlToken) : Grows (expect t) (expect t) :=
  (sees [t]).bind fun _ => .ite pass failure

/-- An item that may be missing grows with the reader of the item. -/
theorem orEmpty {read read' : NodeReader Node} (h : Grows read read') (ts : List YamlToken) :
    Grows (orEmpty ts read) (orEmpty ts read') := (sees ts).bind fun _ => .ite (.pure _) h

/-- A value that may be missing grows with the reader of the value. -/
theorem valueOrEmpty {read read' : NodeReader Node} (h : Grows read read') (ts : List YamlToken) :
    Grows (valueOrEmpty ts read) (valueOrEmpty ts read') :=
  (sees _).bind fun _ => .ite (pass.bind fun _ => h.orEmpty ts) (.pure _)

/-- Passing what stands between two members of a flow collection grows. -/
theorem separator (first : Bool) (t : YamlToken) :
    Grows (separator first t) (separator first t) :=
  (sees [t]).bind fun _ => .ite (expect _) (.pure _)

/-- Reading an anchor grows. -/
theorem readAnchor : Grows readAnchor readAnchor := by
  refine peek.bind fun o => ?_
  split
  · exact pass.bind fun _ => .pure _
  · exact .pure _

/-- Reading a tag grows. -/
theorem readTag : Grows (readTag handles) (readTag handles) := by
  refine peek.bind fun o => ?_
  split
  · refine pass.bind fun _ => ?_
    split
    · exact .pure _
    · exact .failure
  · exact .pure _

/-- Reading the properties of a node grows. -/
theorem readProperties : Grows (readProperties handles) (readProperties handles) := by
  refine readAnchor.bind fun before => readTag.bind fun tag => ?_
  refine .ite (readAnchor.bind fun name => ?_) ((Grows.pure before).bind fun name => ?_)
  all_goals
    cases name with
    | none => exact .pure _
    | some name => exact get.bind fun s => (anchor name s.anchors.size).bind fun _ => .pure _

end Grows

variable (handles)

/-- What the readers of nodes can do with some fuel they can do with more. -/
structure Growing (fuel fuel' : Nat) : Prop where
  node : ∀ block aligned, Grows (node handles block aligned fuel) (node handles block aligned fuel')
  blockItems : Grows (blockItems handles fuel) (blockItems handles fuel')
  alignedItems : Grows (alignedItems handles fuel) (alignedItems handles fuel')
  blockEntries : Grows (blockEntries handles fuel) (blockEntries handles fuel')
  flowItems : ∀ first, Grows (flowItems handles first fuel) (flowItems handles first fuel')
  flowEntries : ∀ first, Grows (flowEntries handles first fuel) (flowEntries handles first fuel')

/-! With more fuel for the parts of a collection, there is more for the collection. -/

namespace Growing

variable {handles} {fuel fuel' : Nat} (h : Growing handles fuel fuel')

include h

/-- The reader of a node, from the readers that it calls. -/
theorem node_succ (block aligned : Bool) : Grows (NodeReader.node handles block aligned (fuel + 1))
    (NodeReader.node handles block aligned (fuel' + 1)) := by
  -- with no node in front, a node may still be made of properties alone
  have hmissing (p : Properties) : Grows
      (if p.anchor.isSome || p.tag.isSome then pure (Node.missing p) else failure)
      (if p.anchor.isSome || p.tag.isSome then pure (Node.missing p) else failure) :=
    .ite (.pure _) .failure
  rw [NodeReader.node, NodeReader.node]
  refine Grows.peek.bind fun o => ?_
  extract_lets content content'
  have hcontent : Grows (content ()) (content' ()) := by
    refine Grows.readProperties.bind fun p => Grows.peek.bind fun o => ?_
    rcases o with _ | t
    · exact hmissing p
    -- each form of a node calls readers for which more fuel makes no difference
    cases t
    case scalar => exact Grows.pass.bind fun _ => .pure _
    case flowSequenceStart =>
      exact Grows.pass.bind fun _ => (h.flowItems true).bind fun _ => .pure _
    case flowMappingStart =>
      exact Grows.pass.bind fun _ => (h.flowEntries true).bind fun _ => .pure _
    case blockEntry => exact Grows.ite (h.alignedItems.bind fun _ => .pure _) (hmissing p)
    case blockSequenceStart =>
      exact Grows.ite (Grows.pass.bind fun _ => h.blockItems.bind fun _ => .pure _) (hmissing p)
    case blockMappingStart =>
      exact Grows.ite (Grows.pass.bind fun _ => h.blockEntries.bind fun _ => .pure _) (hmissing p)
    all_goals exact hmissing p
  split
  · refine Grows.pass.bind fun _ => Grows.get.bind fun s => ?_
    split
    · exact .pure _
    · exact .failure_bind
  · exact hcontent

/-- The reader of the items of a block sequence, from the readers that it calls. -/
theorem blockItems_succ :
    Grows (NodeReader.blockItems handles (fuel + 1)) (NodeReader.blockItems handles (fuel' + 1)) := by
  rw [NodeReader.blockItems, NodeReader.blockItems]
  refine (Grows.sees _).bind fun _ => .ite (Grows.pass.bind fun _ => .pure _) ?_
  refine (Grows.expect _).bind fun _ => ((h.node true false).orEmpty _).bind fun _ => ?_
  exact h.blockItems.bind fun _ => .pure _

/-- The reader of items that stand in the column of their key, from the readers that it calls. -/
theorem alignedItems_succ : Grows (NodeReader.alignedItems handles (fuel + 1))
    (NodeReader.alignedItems handles (fuel' + 1)) := by
  rw [NodeReader.alignedItems, NodeReader.alignedItems]
  refine (Grows.sees _).bind fun _ => .ite (Grows.pass.bind fun _ => ?_) (.pure _)
  refine ((h.node true false).orEmpty _).bind fun _ => ?_
  exact h.alignedItems.bind fun _ => .pure _

/-- The reader of the entries of a block mapping, from the readers that it calls. -/
theorem blockEntries_succ : Grows (NodeReader.blockEntries handles (fuel + 1))
    (NodeReader.blockEntries handles (fuel' + 1)) := by
  rw [NodeReader.blockEntries, NodeReader.blockEntries]
  refine (Grows.sees _).bind fun _ => .ite (Grows.pass.bind fun _ => .pure _) ?_
  refine (Grows.expect _).bind fun _ => ((h.node true true).orEmpty _).bind fun _ => ?_
  refine ((h.node true true).valueOrEmpty _).bind fun _ => ?_
  exact h.blockEntries.bind fun _ => .pure _

/-- The reader of the items between brackets, from the readers that it calls. -/
theorem flowItems_succ (first : Bool) : Grows (NodeReader.flowItems handles first (fuel + 1))
    (NodeReader.flowItems handles first (fuel' + 1)) := by
  have hnode := h.node false false
  rw [NodeReader.flowItems, NodeReader.flowItems]
  refine (Grows.separator _ _).bind fun _ => (Grows.sees _).bind fun _ => ?_
  refine .ite (Grows.pass.bind fun _ => .pure _) ?_
  refine (Grows.sees _).bind fun _ => .ite (Grows.pass.bind fun _ => ?_) ?_
  · have hentry (key : Node) := (hnode.valueOrEmpty flowItemEnds).bind fun value =>
      (h.flowItems false).bind fun items =>
        Grows.pure (Node.mapping ⟨none, none⟩ [(key, value)] :: items)
    refine (Grows.sees _).bind fun _ => .ite ?_ (hnode.bind hentry)
    exact Grows.pass.bind fun _ => (Grows.pure _).bind hentry
  · exact hnode.bind fun _ => (h.flowItems false).bind fun _ => .pure _

/-- The reader of the entries between braces, from the readers that it calls. -/
theorem flowEntries_succ (first : Bool) : Grows (NodeReader.flowEntries handles first (fuel + 1))
    (NodeReader.flowEntries handles first (fuel' + 1)) := by
  have hnode := h.node false false
  rw [NodeReader.flowEntries, NodeReader.flowEntries]
  refine (Grows.separator _ _).bind fun _ => (Grows.sees _).bind fun _ => ?_
  refine .ite (Grows.pass.bind fun _ => .pure _) ?_
  refine (Grows.sees _).bind fun _ => .ite (Grows.pass.bind fun _ => ?_) ?_
  · refine (hnode.orEmpty _).bind fun _ => (hnode.valueOrEmpty _).bind fun _ => ?_
    exact (h.flowEntries false).bind fun _ => .pure _
  · exact hnode.bind fun _ => (h.flowEntries false).bind fun _ => .pure _

end Growing

/-- One more unit of fuel does no harm to any reader, by induction on the fuel for all of them
together. -/
theorem growing (fuel : Nat) : Growing handles fuel (fuel + 1) := by
  induction fuel with
  | zero =>
      exact ⟨fun _ _ => .failure, .failure, .failure, .failure, fun _ => .failure,
        fun _ => .failure⟩
  | succ fuel ih =>
      exact ⟨ih.node_succ, ih.blockItems_succ, ih.alignedItems_succ, ih.blockEntries_succ,
        ih.flowItems_succ, ih.flowEntries_succ⟩

variable {handles} {block aligned : Bool} {fuel fuel' : Nat} {s s' : Cursor} {n : Node}

/-- **More fuel does not change what is read.** -/
theorem run_node_of_le (hle : fuel ≤ fuel')
    (h : (node handles block aligned fuel).run s = some (n, s')) :
    (node handles block aligned fuel').run s = some (n, s') := by
  induction hle with
  | refl => exact h
  | step _ ih => exact (((growing handles _).node block aligned) s n s' ih).1

/-! ### What a collection ends with -/

/-- The last token that a reader takes. -/
def EndsWith (t : YamlToken) (r : NodeReader α) : Prop :=
  ∀ s a s', r.run s = some (a, s') → ∃ used, s.tokens = used ++ t :: s'.tokens

namespace EndsWith

variable {t : YamlToken}

/-- The last token of a sequence of readers is that of the last one. -/
theorem bind (h : Grows r r') (hf : ∀ a, EndsWith t (f a)) : EndsWith t (r >>= f) := by
  intro s b s₂ hrun
  rw [StateT.run_bind] at hrun
  obtain ⟨⟨a, s₁⟩, hr, hrun⟩ := Option.bind_eq_some_iff.mp hrun
  obtain ⟨-, ⟨used, hused⟩⟩ := h s a s₁ hr
  obtain ⟨used', hused'⟩ := hf a s₁ b s₂ hrun
  exact ⟨used ++ used', by rw [← hused, hused', List.append_assoc]⟩

/-- The last token does not depend on what is made of the result. -/
theorem map (h : EndsWith t r) (g : α → β) : EndsWith t (r >>= fun a => pure (g a)) := by
  intro s b s₂ hrun
  rw [StateT.run_bind] at hrun
  obtain ⟨⟨a, s₁⟩, hr, hrun⟩ := Option.bind_eq_some_iff.mp hrun
  obtain ⟨-, rfl⟩ := Prod.mk.inj (Option.some.inj hrun)
  exact h s a s₁ hr

/-- A reader that fails takes no last token. -/
theorem failure : EndsWith t (failure : NodeReader α) := nofun

/-- The last token is the same if it is so in both branches. -/
theorem ite {r₁ : NodeReader α} {P : Prop} [Decidable P] (h : EndsWith t r) (h₁ : EndsWith t r₁) :
    EndsWith t (if P then r else r₁) := by
  split
  · exact h
  · exact h₁

/-- A reader stops where it sees the token. -/
theorem stop (h : EndsWith t r) (a : α) :
    EndsWith t (do if ← sees [t] then do pass; pure a else r) := by
  intro s b s' hrun
  obtain ⟨tokens, anchors⟩ := s
  change (if tokens.head?.any [t].contains = true then do pass; pure a else r).run _ = _ at hrun
  split at hrun
  · next hsees =>
    obtain ⟨-, rfl⟩ := Prod.mk.inj (Option.some.inj hrun)
    cases tokens with
    | nil => cases hsees
    | cons t' tokens =>
        obtain rfl : t' = t := by simpa using hsees
        exact ⟨[], rfl⟩
  · exact h _ _ _ hrun

end EndsWith

/-- A block sequence ends with the token for the end of a block. -/
theorem endsWith_blockItems (fuel : Nat) : EndsWith .blockEnd (blockItems handles fuel) := by
  induction fuel with
  | zero => exact .failure
  | succ fuel ih =>
      rw [blockItems]
      refine .stop (.bind (.expect _) fun _ => ?_) []
      exact .bind (((growing handles fuel).node true false).orEmpty _) fun _ => ih.map _

/-- A block mapping ends with the token for the end of a block. -/
theorem endsWith_blockEntries (fuel : Nat) : EndsWith .blockEnd (blockEntries handles fuel) := by
  induction fuel with
  | zero => exact .failure
  | succ fuel ih =>
      have hnode := (growing handles fuel).node true true
      rw [blockEntries]
      refine .stop (.bind (.expect _) fun _ => .bind (hnode.orEmpty _) fun _ => ?_) []
      exact .bind (hnode.valueOrEmpty _) fun _ => ih.map _

/-- A flow sequence ends with its closing bracket. -/
theorem endsWith_flowItems (first : Bool) (fuel : Nat) :
    EndsWith .flowSequenceEnd (flowItems handles first fuel) := by
  induction fuel generalizing first with
  | zero => exact .failure
  | succ fuel ih =>
      have hnode := (growing handles fuel).node false false
      rw [flowItems]
      refine .bind (.separator _ _) fun _ => .stop (.bind (.sees _) fun _ => ?_) []
      refine .ite (.bind .pass fun _ => ?_) (.bind hnode fun _ => (ih false).map _)
      have hentry (key : Node) := EndsWith.bind (hnode.valueOrEmpty flowItemEnds) fun value =>
        (ih false).map fun items => Node.mapping ⟨none, none⟩ [(key, value)] :: items
      refine .bind (.sees _) fun _ => .ite ?_ (.bind hnode hentry)
      exact .bind .pass fun _ => .bind (.pure _) hentry

/-- A flow mapping ends with its closing brace. -/
theorem endsWith_flowEntries (first : Bool) (fuel : Nat) :
    EndsWith .flowMappingEnd (flowEntries handles first fuel) := by
  induction fuel generalizing first with
  | zero => exact .failure
  | succ fuel ih =>
      have hnode := (growing handles fuel).node false false
      rw [flowEntries]
      refine .bind (.separator _ _) fun _ => .stop (.bind (.sees _) fun _ => ?_) []
      refine .ite (.bind .pass fun _ => ?_) (.bind hnode fun _ => (ih false).map _)
      refine .bind (hnode.orEmpty _) fun _ => .bind (hnode.valueOrEmpty _) fun _ => ?_
      exact (ih false).map _

/-- The tokens that end collections. -/
def collectionEnds : List YamlToken := [.blockEnd, .flowSequenceEnd, .flowMappingEnd]

/-- If a reader gives a collection then so does another one, and the last token is the end of the
collection. -/
def Builds (r r' : NodeReader Node) : Prop :=
  ∀ s n s', r.run s = some (n, s') → n.isCollection = true →
    r'.run s = some (n, s') ∧ ∃ used, ∃ t ∈ collectionEnds, s.tokens = used ++ t :: s'.tokens

namespace Builds

/-- What is read first does not matter to the collection that follows. -/
theorem bind {r : NodeReader α} {f f' : α → NodeReader Node} (h : Grows r r)
    (hf : ∀ a, Builds (f a) (f' a)) : Builds (r >>= f) (r >>= f') := by
  intro s b s₂ hrun hb
  rw [StateT.run_bind] at hrun ⊢
  obtain ⟨⟨a, s₁⟩, hr, hrun⟩ := Option.bind_eq_some_iff.mp hrun
  obtain ⟨-, ⟨used, hused⟩⟩ := h s a s₁ hr
  obtain ⟨hrun', used', t, ht, hused'⟩ := hf a s₁ b s₂ hrun hb
  refine ⟨?_, used ++ used', t, ht, by rw [← hused, hused', List.append_assoc]⟩
  rw [hr]
  exact hrun'

/-- What is no collection does not matter. -/
theorem pure {r' : NodeReader Node} (hn : n.isCollection = false) : Builds (pure n) r' := by
  intro s b s' hrun hb
  obtain ⟨rfl, -⟩ := Prod.mk.inj (Option.some.inj hrun)
  rw [hn] at hb
  cases hb

/-- A reader that fails gives no collection. -/
theorem failure {r' : NodeReader Node} : Builds failure r' := nofun

/-- An empty node is no collection. -/
theorem missing (p : Properties) {r' : NodeReader Node} :
    Builds (if p.anchor.isSome || p.tag.isSome then Pure.pure (Node.missing p)
      else Alternative.failure) r' := by
  split
  · exact pure rfl
  · exact failure

/-- A collection that is read up to its last token is one for both readers. -/
theorem collection {t : YamlToken} {r : NodeReader α} (h : EndsWith t r) (ht : t ∈ collectionEnds)
    (g : α → Node) : Builds (r >>= fun a => Pure.pure (g a)) (r >>= fun a => Pure.pure (g a)) := by
  intro s n s' hrun _
  obtain ⟨used, hused⟩ := h.map g s n s' hrun
  exact ⟨hrun, used, t, ht, hused⟩

end Builds

/-- **A collection ends with a token of its own**, unless its items are aligned with the keys
around it; and where they could be, it is read in the same way. -/
theorem builds_node (block aligned : Bool) (fuel : Nat) :
    Builds (node handles block false fuel) (node handles block aligned fuel) := by
  cases fuel with
  | zero => exact .failure
  | succ fuel =>
      -- each collection is ended by one of three tokens
      have hblock : YamlToken.blockEnd ∈ collectionEnds := .head _
      have hsequence : YamlToken.flowSequenceEnd ∈ collectionEnds := .tail _ (.head _)
      have hmapping : YamlToken.flowMappingEnd ∈ collectionEnds := .tail _ (.tail _ (.head _))
      rw [node, node]
      refine .bind .peek fun o => ?_
      extract_lets content content'
      have hcontent : Builds (content ()) (content' ()) := by
        -- the token in front decides which node is read; most of them give an empty one
        refine .bind .readProperties fun p => .bind .peek fun o => ?_
        rcases o with _ | t
        · exact .missing p
        cases t
        case scalar => exact .bind .pass fun _ => .pure rfl
        case flowSequenceStart =>
          exact .bind .pass fun _ => .collection (endsWith_flowItems true fuel) hsequence _
        case flowMappingStart =>
          exact .bind .pass fun _ => .collection (endsWith_flowEntries true fuel) hmapping _
        case blockEntry => exact .missing p
        case blockSequenceStart =>
          cases block with
          | true => exact .bind .pass fun _ => .collection (endsWith_blockItems fuel) hblock _
          | false => exact .missing p
        case blockMappingStart =>
          cases block with
          | true => exact .bind .pass fun _ => .collection (endsWith_blockEntries fuel) hblock _
          | false => exact .missing p
        all_goals exact .missing p
      split
      · refine .bind .pass fun _ => .bind .get fun s => ?_
        split
        · exact .pure rfl
        · nofun
      · exact hcontent

/-! ### The same collection in another place -/

/-- What stands where an item or an entry is missing ends it. -/
theorem exists_run_of_orEmpty {ends : List YamlToken} {read : NodeReader Node}
    (h : (orEmpty ends read).run s = some (n, s')) (hn : n.isCollection = true) :
    read.run s = some (n, s') := by
  obtain ⟨tokens, anchors⟩ := s
  change (if tokens.head?.any ends.contains = true then pure Node.empty else read).run _ = _ at h
  split at h
  · obtain ⟨rfl, -⟩ := Prod.mk.inj (Option.some.inj h)
    cases hn
  · exact h

/-- A block sequence is read from its start token as its items. -/
theorem run_node_sequence (handles : Handles) (fuel : Nat) (ts : List YamlToken)
    (anchors : Dictionary Nat) :
    (node handles true false (fuel + 1)).run ⟨.blockSequenceStart :: ts, anchors⟩ =
      ((blockItems handles fuel).run ⟨ts, anchors⟩).bind fun r =>
        some (.sequence .none r.1, r.2) := rfl

/-- The items of a block sequence are read as the first one, which may be missing, and the others.
-/
theorem run_blockItems_entry (handles : Handles) (fuel : Nat) (ts : List YamlToken)
    (anchors : Dictionary Nat) : (blockItems handles (fuel + 1)).run ⟨.blockEntry :: ts, anchors⟩ =
      ((orEmpty itemEnds (node handles true false fuel)).run ⟨ts, anchors⟩).bind fun r =>
        ((blockItems handles fuel).run r.2).bind fun r' => some (r.1 :: r'.1, r'.2) := rfl

/-- A sequence without further items ends. -/
theorem eq_blockEnd_of_blockItems (h : (blockItems handles fuel).run s = some ([], s')) :
    s.tokens = .blockEnd :: s'.tokens := by
  obtain ⟨tokens, anchors⟩ := s
  cases fuel with
  | zero => cases h
  | succ fuel =>
      change (if tokens.head?.any [YamlToken.blockEnd].contains = true then do pass; pure []
        else _ : NodeReader (List Node)).run _ = _ at h
      split at h
      · next hsees =>
        obtain ⟨-, rfl⟩ := Prod.mk.inj (Option.some.inj h)
        cases tokens with
        | nil => cases hsees
        | cons t tokens =>
            obtain rfl : t = .blockEnd := by simpa using hsees
            rfl
      · obtain ⟨_, -, h⟩ := Option.bind_eq_some_iff.mp h
        obtain ⟨_, -, h⟩ := Option.bind_eq_some_iff.mp h
        obtain ⟨_, -, h⟩ := Option.bind_eq_some_iff.mp h
        cases h

/-- Where a node is read nothing ends an entry. -/
theorem head?_of_run_node {ts : List YamlToken} {anchors : Dictionary Nat} {r : Node × Cursor}
    (h : (node handles block false fuel).run ⟨ts, anchors⟩ = some r) :
    ts.head?.any entryEnds.contains = false := by
  cases fuel with
  | zero => cases h
  | succ fuel =>
      rcases ts with _ | ⟨t, ts⟩
      · rfl
      · cases t
        case key => cases h
        case value => cases h
        case blockEnd => cases h
        all_goals rfl

/-- **An item of a sequence that is a collection**: it is read where the sequence starts, and the
sequence ends behind it. -/
theorem exists_item {ts : List YamlToken} (hn : n.isCollection = true)
    (h : Stream.root? (.blockSequenceStart :: .blockEntry :: ts) =
      some (some (.sequence .none [n]))) :
    ∃ fuel anchors rest, fuel ≤ 3 * ts.length + 7 ∧ rest.all (· == .documentEnd) = true ∧
      (node Stream.standardHandles true false fuel).run ⟨ts, .empty⟩ =
        some (n, ⟨.blockEnd :: rest, anchors⟩) := by
  have hroot (ts : List YamlToken) : Stream.root? (.blockSequenceStart :: ts) =
      (Stream.content? Stream.standardHandles (.blockSequenceStart :: ts)).bind fun r =>
        if r.2.all (· == .documentEnd) then some (some r.1) else none := rfl
  rw [hroot] at h
  obtain ⟨⟨root, rest⟩, hcontent, h⟩ := Option.bind_eq_some_iff.mp h
  obtain ⟨⟨root', cursor⟩, hread, hcontent⟩ := Option.bind_eq_some_iff.mp hcontent
  obtain ⟨rfl, rfl⟩ := Prod.mk.inj (Option.some.inj hcontent)
  have hfuel : 3 * (YamlToken.blockSequenceStart :: .blockEntry :: ts).length + 3 =
      3 * ts.length + 7 + 1 + 1 := by
    simp only [List.length_cons]
    omega
  rw [hfuel, run_node_sequence, run_blockItems_entry] at hread
  obtain ⟨⟨items, s₁⟩, hitems, hread⟩ := Option.bind_eq_some_iff.mp hread
  obtain ⟨⟨item, s₂⟩, hitem, hitems⟩ := Option.bind_eq_some_iff.mp hitems
  obtain ⟨⟨more, s₃⟩, hmore, hitems⟩ := Option.bind_eq_some_iff.mp hitems
  obtain ⟨rfl, rfl⟩ := Prod.mk.inj (Option.some.inj hitems)
  obtain ⟨rfl, rfl⟩ := Prod.mk.inj (Option.some.inj hread)
  dsimp only at h
  split at h
  · next hend =>
    simp only [Option.some.injEq, Node.sequence.injEq, List.cons.injEq, true_and] at h
    obtain ⟨rfl, rfl⟩ := h
    have htokens := eq_blockEnd_of_blockItems hmore
    obtain ⟨tokens, anchors⟩ := s₂
    obtain rfl : tokens = .blockEnd :: s₃.tokens := htokens
    exact ⟨_, anchors, s₃.tokens, Nat.le_refl _, hend, exists_run_of_orEmpty hitem hn⟩
  · cases h

/-- Such an item does not end with a scalar. -/
theorem ne_scalar_of_item {ts ts' : List YamlToken} {style : Style} {text : String}
    (hn : n.isCollection = true)
    (h : Stream.root? (.blockSequenceStart :: .blockEntry :: ts) =
      some (some (.sequence .none [n]))) :
    .blockSequenceStart :: .blockEntry :: ts ≠ ts' ++ [YamlToken.scalar style text, .blockEnd] := by
  obtain ⟨fuel, anchors, rest, -, hend, hread⟩ := exists_item hn h
  obtain ⟨-, used, t, ht, hused⟩ := builds_node true false fuel _ _ _ hread hn
  intro heq
  dsimp only at hused
  rcases List.eq_nil_or_concat rest with rfl | ⟨rest, t', rfl⟩
  · have hsplit : (YamlToken.blockSequenceStart :: .blockEntry :: used) ++ [t, .blockEnd] =
        ts' ++ [.scalar style text, .blockEnd] := by rw [← heq, hused]; rfl
    obtain ⟨-, hends⟩ := List.append_inj' hsplit rfl
    obtain ⟨rfl, -⟩ := List.cons.inj hends
    simp [collectionEnds] at ht
  · have hsplit : (YamlToken.blockSequenceStart :: .blockEntry ::
        (used ++ t :: .blockEnd :: rest)) ++ [t'] =
          (ts' ++ [.scalar style text]) ++ [.blockEnd] := by
      rw [List.append_assoc, List.singleton_append, ← heq, hused]
      simp
    obtain ⟨-, hlast⟩ := List.append_inj' hsplit rfl
    obtain ⟨rfl, -⟩ := List.cons.inj hlast
    simp at hend

/-- **The same collection as the value of a key**: the tokens of the item are read as the value of
an entry. -/
theorem root?_entry {ts : List YamlToken} {key : String} (hn : n.isCollection = true)
    (h : Stream.root? (.blockSequenceStart :: .blockEntry :: ts) =
      some (some (.sequence .none [n]))) :
    Stream.root? (.blockMappingStart :: Scanner.keyTokens key ++ ts) =
      some (some (.mapping .none [(.scalar .none .plain key, n)])) := by
  obtain ⟨fuel, anchors, rest, hfuel, hend, hread⟩ := exists_item hn h
  have hroot (ts : List YamlToken) : Stream.root? (.blockMappingStart :: ts) =
      (Stream.content? Stream.standardHandles (.blockMappingStart :: ts)).bind fun r =>
        if r.2.all (· == .documentEnd) then some (some r.1) else none := rfl
  -- the fuel counts the tokens, of which the entry has three more
  have hlength : 3 * (YamlToken.blockMappingStart :: (Scanner.keyTokens key ++ ts)).length + 3 =
      3 * ts.length + 12 + 1 + 1 + 1 := by
    simp only [Scanner.keyTokens, List.length_cons, List.length_append, List.length_nil]
    omega
  have hscalar : Reads Stream.standardHandles (.scalar .none .plain key) [.scalar .plain key] :=
    reads_scalar .plain key
  have hfuel₁ : 1 ≤ 3 * ts.length + 12 + 1 := by omega
  have hkey := hscalar.run_orEmpty hfuel₁ true
  -- the value is read as it is read in the item, with more fuel
  have hvalue : (orEmpty entryEnds (node Stream.standardHandles true true (3 * ts.length + 13))).run
      ⟨ts, .empty⟩ = some (n, ⟨.blockEnd :: rest, anchors⟩) := by
    have hrun := run_node_of_le (by omega : fuel ≤ 3 * ts.length + 13) hread
    have hstart := head?_of_run_node hread
    change (if ts.head?.any entryEnds.contains = true then pure Node.empty
      else node Stream.standardHandles true true (3 * ts.length + 13) : NodeReader Node).run _ = _
    rw [hstart]
    exact (builds_node true true _ _ _ _ hrun hn).1
  have hcontent : Stream.content? Stream.standardHandles
      (.blockMappingStart :: (Scanner.keyTokens key ++ ts)) =
        some (.mapping .none [(.scalar .none .plain key, n)], rest) := by
    have hrun : (node Stream.standardHandles true false (3 * ts.length + 12 + 1 + 1 + 1)).run
        ⟨.blockMappingStart :: .key :: ([.scalar .plain key] ++ .value :: ts), .empty⟩ =
          some (.mapping .none [(.scalar .none .plain key, n)], ⟨rest, anchors⟩) := by
      rw [run_node_mapping, run_blockEntries_key, hkey, Option.bind_some, run_valueOrEmpty_value,
        hvalue]
      rfl
    rw [Stream.content?, hlength]
    exact congrArg (·.bind fun r => some (r.1, r.2.tokens)) hrun
  rw [List.cons_append, hroot, hcontent]
  exact if_pos hend

end NodeReader

end AgentPipeline.Yaml
