import AgentPipeline.Proofs.Yaml.Abreast
import AgentPipeline.Proofs.Yaml.Document
import AgentPipeline.Proofs.Yaml.Margin
import AgentPipeline.Proofs.Yaml.Tree

/-!
# A collection in another place

A document with a collection as the item of a sequence, at the left, is compared with one where a
deeper text of the collection is the item of a sequence or the value of an entry. The scanner comes
to the same tokens in all of them, and the reader of nodes to the same node; and the value of the
node does not change with what is around it, as long as no fewer aliases may be followed
(`Carries.valueFor`).
-/

namespace AgentPipeline.Yaml

variable {α β : Type} {d d' : Document} {n : Node} {v : Value}
  {key : String}

/-! ### Values in another document -/

/-- An alias gives its target, and then one alias fewer may be followed. -/
theorem run_follow_alias (d : Document) (anchor left : Nat) :
    ((Reader.follow (.alias anchor)).run d).run (left + 1) =
      (d.target? anchor).map fun n => (n, left) := by
  have hget : ((get : Reader Nat).run d).run (left + 1) = some (left + 1, left + 1) := rfl
  have hset : ((set left : Reader PUnit).run d).run (left + 1) = some (⟨⟩, left) := rfl
  have hread : ((read : Reader Document).run d).run left = some (d, left) := rfl
  have hfailure : (failure : Option (Node × Nat)) = none := rfl
  cases htarget : d.target? anchor with
  | none =>
      simp only [Reader.follow, ReaderT.run_bind, StateT.run_bind, Option.bind_eq_bind,
        Option.bind_some, hget, hset, hread, htarget, ReaderT.run_failure, StateT.run_failure,
        hfailure, Option.map_none]
  | some target =>
      simp only [Reader.follow, ReaderT.run_bind, StateT.run_bind, Option.bind_eq_bind,
        Option.bind_some, hget, hset, hread, htarget, ReaderT.run_pure, StateT.run_pure,
        Option.pure_def, Option.map_some]

/-- **What a reader gives it gives in another document as well**, if more aliases may be followed
there, of which as many more are left. -/
def Carries (d d' : Document) (r : Reader α) : Prop :=
  ∀ left more a left', (r.run d).run left = some (a, left') →
    (r.run d').run (left + more) = some (a, left' + more)

namespace Carries

/-- What does not depend on the document is carried. -/
theorem pure (a : α) : Carries d d' (pure a) := by
  intro left more b left' h
  obtain ⟨rfl, rfl⟩ := Prod.mk.inj (Option.some.inj h)
  rfl

/-- Failures carry nothing. -/
theorem failure : Carries d d' (failure : Reader α) := nofun

/-- Two readers that are carried are carried one after the other. -/
theorem bind {r : Reader α} {f : α → Reader β} (h : Carries d d' r)
    (hf : ∀ a, Carries d d' (f a)) : Carries d d' (r >>= f) := by
  intro left more b left₂ hrun
  rw [ReaderT.run_bind, StateT.run_bind] at hrun ⊢
  obtain ⟨⟨a, left₁⟩, hr, hrun⟩ := Option.bind_eq_some_iff.mp hrun
  rw [h left more a left₁ hr]
  exact hf a left₁ more b left₂ hrun

/-- A choice of readers that are carried is carried. -/
theorem ite {P : Prop} [Decidable P] {r r' : Reader α} (h : Carries d d' r)
    (h' : Carries d d' r') : Carries d d' (if P then r else r') := by
  split
  · exact h
  · exact h'

/-- A list of readers that are carried is carried. -/
theorem mapM {f : α → Reader β} (hf : ∀ a, Carries d d' (f a)) (l : List α) :
    Carries d d' (l.mapM f) := by
  induction l with
  | nil => exact .pure []
  | cons a l ih =>
      rw [List.mapM_cons]
      exact (hf a).bind fun b => ih.bind fun bs => .pure (b :: bs)

/-- A tag does not look at the document. -/
theorem underTag (purpose : Reader.Purpose) (p : Properties) (v : Value) :
    Carries d d' (Reader.underTag purpose p v) := by
  unfold Reader.underTag
  split
  · exact .pure v
  · exact .pure _
  · exact .failure

/-- Aliases mean the same if the same nodes have an anchor. -/
theorem follow (hd : d'.anchored = d.anchored) (n : Node) : Carries d d' (Reader.follow n) := by
  cases n with
  | «alias» anchor =>
      have htarget : d'.target? anchor = d.target? anchor := by
        rw [Document.target?, Document.target?, hd]
      intro left more a left' h
      cases left with
      | zero => cases h
      | succ left =>
          rw [run_follow_alias] at h
          rw [Nat.succ_add, run_follow_alias, htarget]
          obtain ⟨n, hn, h⟩ := Option.map_eq_some_iff.mp h
          obtain ⟨rfl, rfl⟩ := Prod.mk.inj h
          rw [hn]
          rfl
  | _ => exact .pure _

/-- The value of a node is carried if the anchored nodes are the same. -/
theorem valueFor (hd : d'.anchored = d.anchored) (purpose : Reader.Purpose) (depth : Nat)
    (n : Node) : Carries d d' (Reader.valueFor purpose depth n) := by
  -- by the depth; an alias leads to the same node in both documents
  induction depth generalizing n with
  | zero =>
      rw [Reader.valueFor]
      refine (follow hd n).bind fun n => ?_
      cases n with
      | scalar p style text =>
          dsimp only
          cases Reader.scalarValue p style text with
          | some v => exact underTag purpose p v
          | none => exact .failure
      | _ => exact .failure
  | succ depth ih =>
      rw [Reader.valueFor]
      refine (follow hd n).bind fun n => ?_
      cases n with
      | scalar p style text =>
          dsimp only
          cases Reader.scalarValue p style text with
          | some v => exact underTag purpose p v
          | none => exact .failure
      | sequence p items => exact (mapM ih items).bind fun vs => underTag purpose p _
      | mapping p entries =>
          have hentries := mapM (fun e : Node × Node =>
            (ih e.1).bind fun k => (ih e.2).bind fun v => .pure (k, v)) entries
          refine hentries.bind fun vs => ?_
          have hmapping : Carries d d' (Reader.underTag purpose p (.mapping vs)) :=
            underTag purpose p (.mapping vs)
          exact .ite (Carries.failure.bind fun _ : Unit => hmapping) hmapping
      | «alias» => exact .failure

end Carries

/-! ### Collections -/

/-- The value of a scalar is no collection. -/
theorem isCollection_of_scalarValue {p : Properties} {style : Style} {text : String}
    (h : Reader.scalarValue p style text = some v) : v.isCollection = false := by
  -- none of the forms of a scalar, with a tag or without one, gives a sequence or a mapping
  have hspelled {v : Value} (h : Reader.spelled style text = some v) : v.isCollection = false := by
    unfold Reader.spelled at h
    split at h
    · unfold Plain.toValue? at h
      split at h <;> cases h <;> rfl
    · obtain rfl := Option.some.inj h
      rfl
  unfold Reader.scalarValue at h
  split at h
  · exact hspelled h
  split at h
  · obtain ⟨b, -, rfl⟩ := Option.map_eq_some_iff.mp h
    rfl
  split at h
  · split at h <;> cases h
    rfl
  split at h
  · obtain ⟨x, -, rfl⟩ := Option.map_eq_some_iff.mp h
    rfl
  split at h
  · split at h <;> cases h
    rfl
  split at h
  · exact hspelled h
  · obtain rfl := Option.some.inj h
    rfl

/-- **A collection is read from a collection**, unless it is read from an alias. -/
theorem isCollection_of_value {depth left left' : Nat}
    (h : ((Reader.value depth n).run d).run left = some (v, left')) (hv : v.isCollection = true) :
    n.isCollection = true ∨ ∃ anchor, n = .alias anchor := by
  cases n with
  | sequence => exact .inl rfl
  | mapping => exact .inl rfl
  | «alias» anchor => exact .inr ⟨anchor, rfl⟩
  | scalar p style text =>
      rw [Reader.value, Reader.valueFor] at h
      simp only [Reader.follow, pure_bind] at h
      cases hvalue : Reader.scalarValue p style text with
      | none =>
          rw [hvalue] at h
          cases h
      | some w =>
          rw [hvalue] at h
          have hw := isCollection_of_scalarValue hvalue
          dsimp only at h
          unfold Reader.underTag at h
          split at h
          · obtain ⟨rfl, -⟩ := Prod.mk.inj (Option.some.inj h)
            rw [hw] at hv
            cases hv
          · obtain ⟨rfl, -⟩ := Prod.mk.inj (Option.some.inj h)
            cases hv
          · cases h

/-- A sequence with a single item has the value of its item. -/
theorem exists_item_of_value {depth left left' : Nat} {items : List Node}
    (h : ((Reader.value (depth + 1) (.sequence .none items)).run d).run left =
      some (.sequence [v], left')) :
    ∃ n, items = [n] ∧ ((Reader.value depth n).run d).run left = some (v, left') := by
  rw [Reader.value, Reader.valueFor] at h
  simp only [Reader.follow, pure_bind] at h
  change ((List.mapM (Reader.value depth) items >>= _ : Reader Value).run d).run left = _ at h
  rw [ReaderT.run_bind, StateT.run_bind] at h
  obtain ⟨⟨vs, left₁⟩, hitems, h⟩ := Option.bind_eq_some_iff.mp h
  obtain ⟨hvs, rfl⟩ := Prod.mk.inj (Option.some.inj h)
  obtain rfl := Value.sequence.inj hvs
  cases items with
  | nil =>
      obtain ⟨hvs, -⟩ := Prod.mk.inj (Option.some.inj hitems)
      cases hvs
  | cons n items =>
      rw [List.mapM_cons, ReaderT.run_bind, StateT.run_bind] at hitems
      obtain ⟨⟨w, left₂⟩, hitem, hitems⟩ := Option.bind_eq_some_iff.mp hitems
      rw [ReaderT.run_bind, StateT.run_bind] at hitems
      obtain ⟨⟨ws, left₃⟩, hrest, hitems⟩ := Option.bind_eq_some_iff.mp hitems
      obtain ⟨hws, rfl⟩ := Prod.mk.inj (Option.some.inj hitems)
      obtain ⟨rfl, rfl⟩ := List.cons.inj hws
      cases items with
      | nil =>
          obtain ⟨-, rfl⟩ := Prod.mk.inj (Option.some.inj hrest)
          exact ⟨n, rfl, hitem⟩
      | cons m items =>
          rw [List.mapM_cons, ReaderT.run_bind, StateT.run_bind] at hrest
          obtain ⟨⟨x, left₄⟩, -, hrest⟩ := Option.bind_eq_some_iff.mp hrest
          rw [ReaderT.run_bind, StateT.run_bind] at hrest
          obtain ⟨⟨xs, left₅⟩, -, hrest⟩ := Option.bind_eq_some_iff.mp hrest
          obtain ⟨hxs, -⟩ := Prod.mk.inj (Option.some.inj hrest)
          cases hxs

/-- A mapping of a word to a node has the value of the node. -/
theorem value_entry {depth left left' : Nat} (hkey : isStringWord key = true)
    (h : ((Reader.value depth n).run d).run left = some (v, left')) :
    ((Reader.value (depth + 1) (.mapping .none [(.scalar .none .plain key, n)])).run d).run left =
      some (.mapping [(.string key, v)], left') := by
  have hentries : (([(Node.scalar .none .plain key, n)].mapM (readEntry depth)).run d).run left =
      some ([(.string key, v)], left') := by
    simp [readEntry, denotes_word hkey depth d left, h]
  rw [Reader.value, Reader.valueFor]
  simp only [Reader.follow, pure_bind]
  change ((List.mapM (readEntry depth) _ >>= _ : Reader Value).run d).run left = _
  rw [ReaderT.run_bind, StateT.run_bind, hentries]
  rfl

/-- **What is read from the item of a sequence is read from the value of an entry**: an entry has
a node more than an item, so more aliases may be followed. -/
theorem read?_entry {left : Nat} (hkey : isStringWord key = true)
    (h : ((Reader.value 127 n).run (.ofRoot (some (.sequence .none [n])))).run
      (100 * (2 + n.weight)) = some (v, left)) :
    (Document.ofRoot (some (.mapping .none [(.scalar .none .plain key, n)]))).read?
      (Reader.value 128) = some (.mapping [(.string key, v)]) := by
  have hanchored : (Document.ofRoot
      (some (.mapping .none [(.scalar .none .plain key, n)]))).anchored =
        (Document.ofRoot (some (.sequence .none [n]))).anchored := by
    simp [Document.ofRoot, Node.anchored, Node.anchoredItems, Node.anchoredEntries,
      Properties.none]
  have hlimit : (Document.ofRoot
      (some (.mapping .none [(.scalar .none .plain key, n)]))).aliasLimit =
        100 * (2 + n.weight) + 100 := by
    simp [Document.ofRoot, Document.aliasLimit, Node.weight, Node.weightEntries]
    omega
  have hread := value_entry hkey (Carries.valueFor hanchored _ 127 n _ 100 v left h)
  rw [Document.read?, hlimit, StateT.run'_eq]
  exact congrArg (Option.map Prod.fst) hread

/-- The root of a document that starts with a dash is a sequence without properties. -/
theorem NodeReader.exists_items_of_root? {ts : List YamlToken} {root : Option Node}
    (h : Stream.root? (.blockSequenceStart :: ts) = some root) :
    ∃ items, root = some (.sequence .none items) := by
  have hroot : Stream.root? (.blockSequenceStart :: ts) =
      (Stream.content? Stream.standardHandles (.blockSequenceStart :: ts)).bind fun r =>
        if r.2.all (· == .documentEnd) then some (some r.1) else none := rfl
  obtain ⟨⟨n, rest⟩, hcontent, h⟩ := Option.bind_eq_some_iff.mp (hroot.symm.trans h)
  obtain ⟨⟨n', cursor⟩, hread, hcontent⟩ := Option.bind_eq_some_iff.mp hcontent
  obtain ⟨rfl, -⟩ := Prod.mk.inj (Option.some.inj hcontent)
  obtain ⟨⟨items, cursor'⟩, -, hn⟩ := Option.bind_eq_some_iff.mp
    ((run_node_sequence Stream.standardHandles _ ts .empty).symm.trans hread)
  obtain ⟨rfl, -⟩ := Prod.mk.inj (Option.some.inj hn)
  dsimp only at h
  split at h
  · exact ⟨items, (Option.some.inj h).symm⟩
  · cases h

/-- **A document with a collection as its only item**: what its tokens are read as. -/
theorem exists_root?_of_item {text : String} {ts : List YamlToken}
    (hkept : ∀ c ∈ text.toList, isKept c = true)
    (htokens : Scanner.tokens? text.toList = some (.blockSequenceStart :: ts))
    (h : Value.ofDocument? text = some (.sequence [v])) (hv : v.isCollection = true) :
    ∃ n left, n.isCollection = true ∧
      Stream.root? (.blockSequenceStart :: ts) = some (some (.sequence .none [n])) ∧
        ((Reader.value 127 n).run (.ofRoot (some (.sequence .none [n])))).run
          (100 * (2 + n.weight)) = some (v, left) := by
  rw [Value.ofDocument?, parse?_eq_bind hkept, htokens, Option.bind_some] at h
  obtain ⟨d, hd, h⟩ := Option.bind_eq_some_iff.mp h
  obtain ⟨root, hroot, rfl⟩ := Option.map_eq_some_iff.mp hd
  obtain ⟨items, rfl⟩ := NodeReader.exists_items_of_root? hroot
  obtain ⟨⟨w, left⟩, hread, hw⟩ := Option.map_eq_some_iff.mp h
  obtain rfl : w = .sequence [v] := hw
  obtain ⟨n, rfl, hread⟩ := exists_item_of_value hread
  refine ⟨n, left, ?_, hroot, hread⟩
  rcases isCollection_of_value hread hv with hn | ⟨anchor, rfl⟩
  · exact hn
  · -- no node has an anchor that the alias could mean
    have hfails (left : Nat) : ((Reader.follow (.alias anchor)).run
        (.ofRoot (some (.sequence .none [.alias anchor])))).run left = none := by
      cases left <;> rfl
    rw [Reader.value, Reader.valueFor, ReaderT.run_bind, StateT.run_bind, hfails] at hread
    cases hread

/-! ### Tokens -/

namespace Scanner

variable {rest cs : List Char} {p p' : Position} {tokens ts : List YamlToken} {columns : List Nat}
  {result : Option (List YamlToken)}

/-- The first dash of a sequence opens it. -/
theorem yields_item (h : (block rest ((p.next '-').next ' ')
      (tokens ++ [YamlToken.blockSequenceStart, .blockEntry]) [p.column] true).Yields result) :
    (block ('-' :: ' ' :: rest) p tokens [] true).Yields result := by
  have hfetch : (block ('-' :: ' ' :: rest) p tokens [] true).fetch '-' (' ' :: rest) =
      some (block (' ' :: rest) (p.next '-')
        (tokens ++ [YamlToken.blockSequenceStart, .blockEntry]) [p.column] true) := by
    have hitem : (block ('-' :: ' ' :: rest) p tokens [] true).fetch '-' (' ' :: rest) =
        (block ('-' :: ' ' :: rest) p tokens [] true).fetchBlockEntry := by
      simp [fetch, isDocumentMark, endsWord, isBlankOrBreak]
    rw [hitem]
    simp [fetchBlockEntry, openBlock, block, inFlow, isDeeper, dropCandidate, withdraw, skip,
      allowKey, push, Position.skip]
  exact .of_isVisible rfl (by decide) rfl rfl hfetch (Nat.le_refl _) (yields_space h)

/-- A document with an item at a column. -/
theorem exists_tokens?_item (indent : Nat) (rest : List Char) :
    ∃ p : Position, p.column = indent + 2 ∧ ∀ result,
      (block rest p [.blockSequenceStart, .blockEntry] [indent] true).Yields result →
        tokens? (spaces indent ++ '-' :: ' ' :: rest) = result := by
  let q := Position.skip ⟨0, 0, 0⟩ (spaces indent)
  have hq : q.column = indent := by
    rw [Position.column_skip, spaces, List.length_replicate]
    exact Nat.zero_add indent
  refine ⟨(q.next '-').next ' ', congrArg (· + 2) hq, fun result h => ?_⟩
  have hitem : (block ('-' :: ' ' :: rest) q [] [] true).Yields result :=
    yields_item (hq.symm ▸ h)
  exact yields_spaces indent hitem _ (Nat.lt_succ_self _)

/-- A document with a key at a column and its value on the lines below. -/
theorem exists_tokens?_below (hkey : isWord key.toList = true)
    (hlength : key.length ≤ 1024) (indent : Nat) (rest : List Char) :
    ∃ p : Position, p.column = indent + 2 ∧ ∀ result,
      (block rest p (.blockMappingStart :: keyTokens key) [indent] true).Yields result →
        tokens? (spaces indent ++ (key.toList ++ ':' :: '\n' :: (spaces (indent + 2) ++ rest))) =
          result := by
  obtain ⟨q, -, htokens⟩ := exists_tokens?_key indent ('\n' :: (spaces (indent + 2) ++ rest)) hkey
    hlength rfl
  exact ⟨q.indented (indent + 2), Position.column_indented q (indent + 2), fun result h =>
    htokens result (yields_break (yields_spaces (indent + 2) h))⟩

/-- The scanners behind the dash at the left and in front of a deeper text are abreast. -/
theorem abreast_item (hbreaks : ∀ c ∈ cs, isBreak c = true → c = '\n') {indent : Nat}
    (hp : p.column = 2) (hp' : p'.column = indent + 2) (pre pre' : List YamlToken) :
    Abreast 2 indent pre pre' (block (indentLines 2 false cs ++ ['\n']) p pre [0] true)
      (block (padLines (indent + 2) cs ++ ['\n']) p' pre' [indent] true) := by
  have hcolumn : p'.column = p.column + indent := by omega
  refine ⟨deeper_padLines hbreaks fun _ _ _ => ⟨Nat.le_of_eq hp.symm, hcolumn⟩, ⟨[], ?_, ?_⟩,
    ⟨[], rfl, List.forall_mem_nil _⟩, ?_, rfl, .none, .nil⟩
  · simp [block]
  · simp [block]
  · simp [block]

/-- **The same tokens in another place**: a collection that is an item at the left has the tokens
that it has as an item at another column, or below a key. -/
theorem exists_tokens?_of_item (hbreaks : ∀ c ∈ cs, isBreak c = true → c = '\n')
    (h : tokens? ('-' :: ' ' :: (indentLines 2 false cs ++ ['\n'])) = some ts) :
    ∃ ts₁, ts = .blockSequenceStart :: .blockEntry :: ts₁ ∧
      ((∀ ts' style text, ts ≠ ts' ++ [YamlToken.scalar style text, .blockEnd]) →
        (∀ indent, tokens? (spaces indent ++ '-' :: ' ' ::
          (padLines (indent + 2) cs ++ ['\n'])) = some ts) ∧
        ∀ indent key, isWord key.toList = true → key.length ≤ 1024 →
          tokens? (spaces indent ++ (key.toList ++
            ':' :: '\n' :: (spaces (indent + 2) ++ (padLines (indent + 2) cs ++ ['\n'])))) =
              some (.blockMappingStart :: keyTokens key ++ ts₁)) := by
  obtain ⟨p, hp, hitem⟩ := exists_tokens?_item 0 (indentLines 2 false cs ++ ['\n'])
  obtain ⟨result, hresult⟩ := exists_yields (block (indentLines 2 false cs ++ ['\n']) p
    [.blockSequenceStart, .blockEntry] [0] true)
  obtain rfl : result = some ts := (hitem result hresult).symm.trans h
  have hrun := hresult _ (Nat.lt_succ_self _)
  obtain ⟨ts₁, rfl⟩ := hresult.prefix_of_block
  refine ⟨ts₁, rfl, fun hends => ?_⟩
  -- behind the dash or the key both texts go on alike, unless a scalar at the very end differs
  have hdeeper {indent : Nat} {p' : Position} (hp' : p'.column = indent + 2)
      (pre' : List YamlToken) :
      (block (padLines (indent + 2) cs ++ ['\n']) p' pre' [indent] true).Yields
        (some (pre' ++ ts₁)) := by
    rcases exists_yields_of_abreast (abreast_item hbreaks hp hp' _ pre') (by decide) hrun with
      ⟨ts₂, hts, hyields⟩ | ⟨ts₂, style, text, hts⟩
    · exact List.append_cancel_left hts ▸ hyields
    · exact absurd hts (hends ts₂ style text)
  refine ⟨fun indent => ?_, fun indent key hkey hlength => ?_⟩
  · obtain ⟨p', hp', hitem'⟩ := exists_tokens?_item indent (padLines (indent + 2) cs ++ ['\n'])
    exact hitem' _ (hdeeper hp' _)
  · obtain ⟨p', hp', hbelow⟩ := exists_tokens?_below hkey hlength indent
      (padLines (indent + 2) cs ++ ['\n'])
    exact hbelow _ (hdeeper hp' _)

end Scanner

end AgentPipeline.Yaml
