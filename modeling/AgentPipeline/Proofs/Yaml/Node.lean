import AgentPipeline.Proofs.Yaml.Scan
import AgentPipeline.Yaml.Node

/-!
# Reading nodes back from tokens

Some tokens are **read as** a node if the reader of nodes takes just them, whatever follows and
with any fuel that they do not exceed (`NodeReader.Reads`). Mappings are read entry by entry, so
the same is said of the entries of a mapping (`ReadsEntries`). Nothing is claimed about anchors,
tags and aliases: the nodes here have no properties.
-/

namespace AgentPipeline.Yaml

/-- No anchor and no tag. -/
def Properties.none : Properties := ⟨Option.none, Option.none⟩

namespace NodeReader

variable {handles : Handles} {n key value : Node} {ts kts vts : List YamlToken}
  {es : List (Node × Node)}

/-- **Some tokens are read as a node**, and what follows them is left. The first of them ends
neither an entry nor a document. -/
structure Reads (handles : Handles) (n : Node) (ts : List YamlToken) : Prop where
  starts : ∃ t ts', ts = t :: ts' ∧ entryEnds.contains t = false ∧ Stream.endsContent [t] = false
  run : ∀ fuel aligned rest anchors, ts.length ≤ fuel →
    (node handles true aligned fuel).run ⟨ts ++ rest, anchors⟩ = some (n, ⟨rest, anchors⟩)

/-- Some tokens are read as the entries of a mapping, up to its end. -/
def ReadsEntries (handles : Handles) (es : List (Node × Node)) (ts : List YamlToken) : Prop :=
  ∀ fuel rest anchors, ts.length < fuel →
    (blockEntries handles fuel).run ⟨ts ++ YamlToken.blockEnd :: rest, anchors⟩ =
      some (es, ⟨rest, anchors⟩)

/-- The token of a scalar is read as its node. -/
theorem reads_scalar (style : Style) (text : String) :
    Reads handles (.scalar .none style text) [.scalar style text] := by
  refine ⟨⟨_, _, rfl, rfl, rfl⟩, fun fuel aligned rest anchors hfuel => ?_⟩
  cases fuel with
  | zero => cases hfuel
  | succ fuel => rfl

/-- Two braces are read as an empty mapping. -/
theorem reads_braces :
    Reads handles (.mapping .none []) [.flowMappingStart, .flowMappingEnd] := by
  refine ⟨⟨_, _, rfl, rfl, rfl⟩, fun fuel aligned rest anchors hfuel => ?_⟩
  obtain ⟨fuel, rfl⟩ := Nat.exists_eq_add_of_le' hfuel
  rfl

/-- No tokens are read as no entries. -/
theorem readsEntries_nil : ReadsEntries handles [] [] := by
  intro fuel rest anchors hfuel
  cases fuel with
  | zero => cases hfuel
  | succ fuel => rfl

/-- Where something is written it is read. -/
theorem Reads.run_orEmpty (h : Reads handles n ts) {fuel : Nat} (hfuel : ts.length ≤ fuel)
    (aligned : Bool) (rest : List YamlToken) (anchors : Dictionary Nat) :
    (orEmpty entryEnds (node handles true aligned fuel)).run ⟨ts ++ rest, anchors⟩ =
      some (n, ⟨rest, anchors⟩) := by
  obtain ⟨t, ts', rfl, hends, -⟩ := h.starts
  change (if entryEnds.contains t = true then pure Node.empty
    else node handles true aligned fuel : NodeReader Node).run _ = _
  rw [hends, if_neg Bool.false_ne_true, h.run fuel aligned rest anchors hfuel]

/-- One round of the reader of entries. -/
theorem run_blockEntries_key (handles : Handles) (fuel : Nat) (ts : List YamlToken)
    (anchors : Dictionary Nat) : (blockEntries handles (fuel + 1)).run ⟨.key :: ts, anchors⟩ =
      ((orEmpty entryEnds (node handles true true fuel)).run ⟨ts, anchors⟩).bind fun r =>
        ((valueOrEmpty entryEnds (node handles true true fuel)).run r.2).bind fun r' =>
          ((blockEntries handles fuel).run r'.2).bind fun r'' =>
            some ((r.1, r'.1) :: r''.1, r''.2) := rfl

/-- Behind a colon a value is read, or nothing where it is missing. -/
theorem run_valueOrEmpty_value (ends : List YamlToken) (read : NodeReader Node)
    (ts : List YamlToken) (anchors : Dictionary Nat) :
    (valueOrEmpty ends read).run ⟨.value :: ts, anchors⟩ =
      (orEmpty ends read).run ⟨ts, anchors⟩ := rfl

/-- A block mapping is read from its entries. -/
theorem run_node_mapping (handles : Handles) (aligned : Bool) (fuel : Nat) (ts : List YamlToken)
    (anchors : Dictionary Nat) :
    (node handles true aligned (fuel + 1)).run ⟨.blockMappingStart :: ts, anchors⟩ =
      ((blockEntries handles fuel).run ⟨ts, anchors⟩).bind fun r =>
        some (.mapping .none r.1, r.2) := rfl

/-- An entry in front of others is read from its key and its value. -/
theorem readsEntries_cons (hkey : Reads handles key kts) (hvalue : Reads handles value vts)
    (hes : ReadsEntries handles es ts) :
    ReadsEntries handles ((key, value) :: es)
      (YamlToken.key :: kts ++ (YamlToken.value :: vts) ++ ts) := by
  intro fuel rest anchors hfuel
  cases fuel with
  | zero => cases hfuel
  | succ fuel =>
      simp only [List.length_append, List.length_cons] at hfuel
      have hkeyFuel : kts.length ≤ fuel := by omega
      have hvalueFuel : vts.length ≤ fuel := by omega
      have hkey := hkey.run_orEmpty hkeyFuel true
        (.value :: (vts ++ (ts ++ YamlToken.blockEnd :: rest))) anchors
      have hvalue := hvalue.run_orEmpty hvalueFuel true (ts ++ YamlToken.blockEnd :: rest)
        anchors
      have hes := hes fuel rest anchors (by omega)
      simp only [List.cons_append, List.append_assoc]
      rw [run_blockEntries_key, hkey, Option.bind_some, run_valueOrEmpty_value, hvalue,
        Option.bind_some, hes, Option.bind_some]

/-- Entries between the tokens of a block are read as a mapping. -/
theorem reads_mapping (hes : ReadsEntries handles es ts) :
    Reads handles (.mapping .none es)
      (YamlToken.blockMappingStart :: ts ++ [YamlToken.blockEnd]) := by
  refine ⟨⟨_, _, rfl, rfl, rfl⟩, fun fuel aligned rest anchors hfuel => ?_⟩
  cases fuel with
  | zero => cases hfuel
  | succ fuel =>
      simp only [List.length_append, List.length_cons, List.length_nil] at hfuel
      have hes := hes fuel rest anchors (by omega)
      simp only [List.cons_append, List.append_assoc, List.nil_append]
      rw [run_node_mapping, hes, Option.bind_some]

/-- An entry of a mapping of words. -/
def entryNodes (e : String × String) : Node × Node :=
  (.scalar .none .plain e.1, .scalar .none .plain e.2)

/-- Entries of words are read as such. -/
theorem readsEntries_words (es : List (String × String)) :
    ReadsEntries handles (es.map entryNodes) (es.flatMap Scanner.entryTokens) := by
  induction es with
  | nil => exact readsEntries_nil
  | cons e es ih =>
      exact readsEntries_cons (reads_scalar .plain e.1) (reads_scalar .plain e.2) ih

/-- A stream from which a node is read is a document with this root. -/
theorem root?_of_reads (h : Reads Stream.standardHandles n ts) :
    Stream.root? ts = some (some n) := by
  obtain ⟨t, ts', rfl, -, hcontent⟩ := h.starts
  have hrun := h.run (3 * (t :: ts').length + 3) false [] .empty (by omega)
  rw [List.append_nil] at hrun
  have hroot : Stream.content? Stream.standardHandles (t :: ts') = some (n, []) := by
    rw [Stream.content?]
    dsimp only
    rw [hrun]
    rfl
  simp [Stream.root?, hcontent, hroot]

/-- The root of a document that starts with a key and a scalar. -/
theorem exists_root?_eq {key w : String} {style : Style}
    (hts : .blockMappingStart :: Scanner.keyTokens key ++ [YamlToken.scalar style w] <+: ts)
    {root : Option Node} (h : Stream.root? ts = some root) : ∃ es,
      root = some (.mapping .none ((.scalar .none .plain key, .scalar .none style w) :: es)) := by
  obtain ⟨more, rfl⟩ := hts
  have hreads (style : Style) (text : String) :
      Reads Stream.standardHandles (.scalar .none style text) [.scalar style text] :=
    reads_scalar style text
  have hkey (fuel : Nat) (hfuel : 1 ≤ fuel) := (hreads .plain key).run_orEmpty hfuel true
  have hvalue (fuel : Nat) (hfuel : 1 ≤ fuel) := (hreads style w).run_orEmpty hfuel true
  have hrun (k : Nat) : (node Stream.standardHandles true false (k + 3)).run
      ⟨.blockMappingStart :: .key :: ([.scalar .plain key] ++ .value ::
        ([.scalar style w] ++ more)), .empty⟩ =
        ((blockEntries Stream.standardHandles (k + 1)).run ⟨more, .empty⟩).bind fun r =>
          some (.mapping .none ((.scalar .none .plain key, .scalar .none style w) :: r.1),
            r.2) := by
    rw [run_node_mapping, run_blockEntries_key, hkey _ (Nat.le_add_left 1 k), Option.bind_some,
      run_valueOrEmpty_value, hvalue _ (Nat.le_add_left 1 k), Option.bind_some]
    cases (blockEntries Stream.standardHandles (k + 1)).run ⟨more, .empty⟩ <;> rfl
  have hroot (ts' : List YamlToken) : Stream.root? (.blockMappingStart :: ts') =
      (Stream.content? Stream.standardHandles (.blockMappingStart :: ts')).bind fun r =>
        if r.2.all (· == .documentEnd) then some (some r.1) else none := rfl
  obtain ⟨⟨n, rest⟩, hcontent, h⟩ := Option.bind_eq_some_iff.mp ((hroot _).symm.trans h)
  obtain ⟨⟨n', cursor⟩, hread, hcontent⟩ := Option.bind_eq_some_iff.mp hcontent
  obtain ⟨r, -, hr⟩ := Option.bind_eq_some_iff.mp ((hrun _).symm.trans hread)
  obtain rfl : n' = n := congrArg Prod.fst (Option.some.inj hcontent)
  have hn : some n' = root := by
    split at h
    · exact Option.some.inj h
    · cases h
  rw [← hn]
  exact ⟨r.1, congrArg some (congrArg Prod.fst (Option.some.inj hr)).symm⟩

end NodeReader

end AgentPipeline.Yaml
