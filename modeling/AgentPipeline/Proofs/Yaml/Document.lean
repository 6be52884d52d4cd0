import AgentPipeline.Proofs.Yaml.Node
import AgentPipeline.Yaml.Document

/-!
# Documents of words

A document with a single key, whose value is a word, an empty mapping or a mapping of words to
words, holds just that: the texts that are written come back as strings, in the order in which
they are written. What the words are does not matter as long as none of them means anything but
itself (`isStringWord`).
-/

namespace AgentPipeline.Yaml

variable {n : Node} {v : Value} {s : String} {c : Char} {cs : List Char} {depth : Nat}

/-! ### Characters -/

/-- Characters that a document may hold and that are no line break of another form than the line
feed. -/
def isKept (c : Char) : Bool :=
  isAllowed c && c != '\r' && c.toNat != 0x85

/-- Printable characters are kept. -/
theorem isKept_of_isPrintable (h : isPrintable c = true) : isKept c = true := by
  have hreturn : c ≠ '\r' := by
    rintro rfl
    exact absurd h (by decide)
  have hnext : c.toNat ≠ 0x85 := by
    intro hnext
    simp [isPrintable, hnext] at h
  simp [isKept, isAllowed, h, hreturn, hnext]

/-- An allowed character that breaks no line is kept. -/
theorem isKept_of_isAllowed (hallowed : isAllowed c = true) (hbreak : isBreak c = false) :
    isKept c = true := by
  simp only [isBreak, Bool.or_eq_false_iff, beq_eq_false_iff_ne] at hbreak
  simp [isKept, hallowed, hbreak]

/-- These characters are taken as they are. -/
theorem decode_eq_self (h : ∀ c ∈ cs, isKept c = true) : decode cs = some cs := by
  simp only [isKept, Bool.and_eq_true, bne_iff_ne] at h
  have hallowed : cs.all isAllowed = true := List.all_eq_true.mpr fun c hc => (h c hc).1.1
  have hbreaks : normalizeBreaks cs = cs := by
    clear hallowed
    induction cs with
    | nil => rfl
    | cons c cs ih =>
        obtain ⟨⟨⟨-, hreturn⟩, hnext⟩, hcs⟩ := List.forall_mem_cons.mp h
        rw [normalizeBreaks, if_neg (not_or.mpr ⟨hreturn, hnext⟩), ih hcs]
        exact fun _ heq _ => hreturn heq
  rw [decode, if_pos hallowed, hbreaks]

/-! ### Words for strings -/

/-- Whether a text is a word that may be a key and denotes itself. -/
def isStringWord (s : String) : Bool :=
  isWord s.toList && decide (s.length ≤ 1024) && !Plain.isNullWord s && (Plain.bool? s).isNone

/-- A word that may be a key and is neither null nor a truth value. -/
theorem isStringWord_iff : isStringWord s = true ↔ isWord s.toList = true ∧ s.length ≤ 1024 ∧
    Plain.isNullWord s = false ∧ Plain.bool? s = none := by
  simp [isStringWord, and_assoc]

/-- Two such words make an entry of words. -/
theorem isWordEntry_of_isStringWord {key value : String} (hkey : isStringWord key = true)
    (hvalue : isStringWord value = true) : Scanner.IsWordEntry (key, value) := by
  obtain ⟨hword, hlength, -⟩ := isStringWord_iff.mp hkey
  exact ⟨hword, hlength, (isStringWord_iff.mp hvalue).1⟩

/-- The characters of such a word are kept. -/
theorem isKept_of_isStringWord (h : isStringWord s = true) :
    ∀ c ∈ s.toList, isKept c = true := fun _ hc =>
  isKept_of_isPrintable
    (isPrintable_of_isNameChar (isNameChar_of_isWord (isStringWord_iff.mp h).1 hc))

/-! ### Values -/

/-- A node denotes a value if it is read as that value and no alias is followed. -/
def Denotes (depth : Nat) (n : Node) (v : Value) : Prop :=
  ∀ (d : Document) (left : Nat), ((Reader.value depth n).run d).run left = some (v, left)

/-- A scalar without properties has the value of its spelling. -/
theorem run_value_scalar (style : Style) (s : String) (depth : Nat) (d : Document) (left : Nat) :
    ((Reader.value depth (.scalar .none style s)).run d).run left =
      (Reader.spelled style s).map fun v => (v, left) := by
  have hvalue : Reader.scalarValue .none style s = Reader.spelled style s := rfl
  rw [Reader.value, Reader.valueFor]
  simp only [Reader.follow, pure_bind, hvalue]
  cases Reader.spelled style s <;> rfl

/-- A scalar denotes what it spells. -/
theorem denotes_scalar {style : Style} (h : Reader.spelled style s = some v) (depth : Nat) :
    Denotes depth (.scalar .none style s) v := by
  intro d left
  rw [run_value_scalar, h]
  rfl

/-- A word denotes itself. -/
theorem denotes_word (h : isStringWord s = true) (depth : Nat) :
    Denotes depth (.scalar .none .plain s) (.string s) := by
  obtain ⟨hword, -, hnull, hbool⟩ := isStringWord_iff.mp h
  have hspelled : Reader.spelled .plain s = some (.string s) :=
    Plain.toValue?_word hword hnull hbool
  exact denotes_scalar hspelled depth

/-- Read the key and the value of an entry. -/
def readEntry (depth : Nat) (e : Node × Node) : Reader (Value × Value) := do
  pure (← Reader.value depth e.1, ← Reader.value depth e.2)

/-- The entries of a mapping are read one by one. -/
theorem mapM_readEntry {α : Type} {l : List α} {f : α → Node × Node} {g : α → Value × Value}
    (hl : ∀ a ∈ l, Denotes depth (f a).1 (g a).1 ∧ Denotes depth (f a).2 (g a).2)
    (d : Document) (left : Nat) :
    (((l.map f).mapM (readEntry depth)).run d).run left = some (l.map g, left) := by
  induction l with
  | nil => rfl
  | cons a l ih =>
      obtain ⟨⟨hkey, hvalue⟩, hl⟩ := List.forall_mem_cons.mp hl
      simpa [readEntry, hkey d left, hvalue d left] using ih hl

/-- A mapping denotes the values of its entries, if no two keys are equal. -/
theorem denotes_mapping {α : Type} {l : List α} {f : α → Node × Node} {g : α → Value × Value}
    (hl : ∀ a ∈ l, Denotes depth (f a).1 (g a).1 ∧ Denotes depth (f a).2 (g a).2)
    (hkeys : Value.keysDistinct (l.map g) = true) :
    Denotes (depth + 1) (.mapping .none (l.map f)) (.mapping (l.map g)) := by
  intro d left
  have hentries := mapM_readEntry hl d left
  rw [Reader.value, Reader.valueFor]
  simp only [Reader.follow, pure_bind]
  change (((l.map f).mapM (readEntry depth) >>= _ : Reader Value).run d).run left = _
  rw [ReaderT.run_bind, StateT.run_bind, hentries]
  simp only [Option.bind_eq_bind, Option.bind_some, hkeys]
  rfl

/-- A sequence denotes the values of its items. -/
theorem denotes_sequence {α : Type} {l : List α} {f : α → Node} {g : α → Value}
    (hl : ∀ a ∈ l, Denotes depth (f a) (g a)) :
    Denotes (depth + 1) (.sequence .none (l.map f)) (.sequence (l.map g)) := by
  intro d left
  have hitems : (((l.map f).mapM (Reader.value depth)).run d).run left = some (l.map g, left) := by
    induction l with
    | nil => rfl
    | cons a l ih =>
        rw [List.forall_mem_cons] at hl
        simpa [hl.1 d left] using ih hl.2
  rw [Reader.value, Reader.valueFor]
  simp only [Reader.follow, pure_bind]
  change (((l.map f).mapM (Reader.value depth) >>= _ : Reader Value).run d).run left = _
  rw [ReaderT.run_bind, StateT.run_bind, hitems]
  rfl

/-- The value of a mapping starts with the values of its first entry. -/
theorem exists_eq_mapping {kn vn : Node} {es : List (Node × Node)} {d : Document}
    {left left' : Nat} {k x : Value} (hk : Denotes depth kn k) (hx : Denotes depth vn x)
    (h : ((Reader.value (depth + 1) (.mapping .none ((kn, vn) :: es))).run d).run left =
      some (v, left')) :
    ∃ vs, v = .mapping ((k, x) :: vs) := by
  rw [Reader.value, Reader.valueFor] at h
  simp only [Reader.follow, pure_bind] at h
  change ((List.mapM (readEntry depth) _ >>= _ : Reader Value).run d).run left = _ at h
  rw [ReaderT.run_bind, StateT.run_bind] at h
  obtain ⟨⟨vs, left₁⟩, hentries, h⟩ := Option.bind_eq_some_iff.mp h
  have hfirst : ((readEntry depth (kn, vn)).run d).run left = some ((k, x), left) := by
    simp [readEntry, hk d left, hx d left]
  rw [List.mapM_cons, ReaderT.run_bind, StateT.run_bind, hfirst, Option.bind_eq_bind,
    Option.bind_some, ReaderT.run_bind, StateT.run_bind] at hentries
  obtain ⟨⟨vs', left₂⟩, -, hentries⟩ := Option.bind_eq_some_iff.mp hentries
  obtain rfl : (k, x) :: vs' = vs := congrArg Prod.fst (Option.some.inj hentries)
  refine ⟨vs', ?_⟩
  dsimp only at h
  split at h
  · cases h
  · exact (congrArg Prod.fst (Option.some.inj h)).symm

/-- Keys that are different strings are different values. -/
theorem keysDistinct_of_nodup {α : Type} {l : List α} {key : α → String} (value : α → Value)
    (h : (l.map key).Nodup) :
    Value.keysDistinct (l.map fun a => (.string (key a), value a)) = true := by
  induction l with
  | nil => rfl
  | cons a l ih =>
      rw [List.map_cons, List.nodup_cons] at h
      have hother : ∀ b ∈ l, key a ≠ key b := fun b hb heq => h.1 (heq ▸ List.mem_map_of_mem hb)
      simpa [Value.keysDistinct, Value.same, ih h.2] using hother

/-! ### Documents -/

/-- A text holds the value that the root of its document denotes, with collections nested at most
128 deep. -/
def Value.ofDocument? (text : String) : Option Value :=
  (Document.parse? text).bind (·.read? (Reader.value 128))

variable {text key : String} {rest : List Char} {ts : List YamlToken}

/-- A document whose characters are all kept is parsed from the tokens of its text. -/
theorem parse?_eq_bind (hkept : ∀ c ∈ text.toList, isKept c = true) :
    Document.parse? text = (Scanner.tokens? text.toList).bind fun ts =>
      Document.ofRoot <$> Stream.root? ts := by
  have hparse : Document.parse? text = (decode text.toList).bind fun cs =>
      (Scanner.tokens? cs).bind fun ts => Document.ofRoot <$> Stream.root? ts := rfl
  rw [hparse, decode_eq_self hkept, Option.bind_some]

/-- A document is parsed if its tokens are read as a node. -/
theorem parse?_of_reads (hkept : ∀ c ∈ text.toList, isKept c = true)
    (htokens : Scanner.tokens? text.toList = some ts)
    (hreads : NodeReader.Reads Stream.standardHandles n ts) :
    Document.parse? text = some (.ofRoot (some n)) := by
  rw [parse?_eq_bind hkept, htokens, Option.bind_some, NodeReader.root?_of_reads hreads]
  rfl

/-- What has no tokens holds nothing. -/
theorem Value.ofDocument?_of_tokens?_eq_none (hkept : ∀ c ∈ text.toList, isKept c = true)
    (htokens : Scanner.tokens? text.toList = none) : Value.ofDocument? text = none := by
  rw [Value.ofDocument?, parse?_eq_bind hkept, htokens]
  rfl

/-- It holds the value that its root denotes. -/
theorem Value.ofDocument?_of_denotes (hparse : Document.parse? text = some (.ofRoot (some n)))
    (hdenotes : Denotes 128 n v) : Value.ofDocument? text = some v := by
  rw [Value.ofDocument?, hparse, Option.bind_some, Document.read?, Document.ofRoot,
    Option.getD_some]
  simp [hdenotes _ _]

/-- The characters of an entry of words are kept. -/
theorem isKept_of_entryLine {e : String × String} (indent : Nat)
    (hkey : isStringWord e.1 = true) (hvalue : isStringWord e.2 = true) :
    ∀ c ∈ Scanner.entryLine indent e, isKept c = true := by
  simp only [Scanner.entryLine, List.forall_mem_cons, List.forall_mem_append]
  refine ⟨by decide, ?_, isKept_of_isStringWord hkey, by decide, by decide,
    isKept_of_isStringWord hvalue⟩
  intro c hc
  rw [List.eq_of_mem_replicate hc]
  decide

/-- The characters of a document with a single key are kept if those behind the key are. -/
theorem isKept_single (hkey : isStringWord key = true)
    (htext : text.toList = key.toList ++ ':' :: rest) (hrest : ∀ c ∈ rest, isKept c = true) :
    ∀ c ∈ text.toList, isKept c = true := by
  rw [htext, List.forall_mem_append, List.forall_mem_cons]
  exact ⟨isKept_of_isStringWord hkey, by decide, hrest⟩

/-- A document with a single key, at whatever column it stands. -/
theorem parse?_key (hkept : ∀ c ∈ text.toList, isKept c = true)
    (htokens : Scanner.tokens? text.toList =
      some (.blockMappingStart :: Scanner.keyTokens key ++ (ts ++ [YamlToken.blockEnd])))
    (hreads : NodeReader.Reads Stream.standardHandles n ts) :
    Document.parse? text =
      some (.ofRoot (some (.mapping .none [(.scalar .none .plain key, n)]))) := by
  have hroot : NodeReader.Reads Stream.standardHandles
      (.mapping .none [(.scalar .none .plain key, n)])
      (.blockMappingStart :: Scanner.keyTokens key ++ (ts ++ [YamlToken.blockEnd])) := by
    simpa [Scanner.keyTokens] using NodeReader.reads_mapping (NodeReader.readsEntries_cons
      (NodeReader.reads_scalar .plain key) hreads NodeReader.readsEntries_nil)
  exact parse?_of_reads hkept htokens hroot

/-- A document with a single key holds what its value denotes. -/
theorem Value.ofDocument?_key (hkey : isStringWord key = true)
    (hkept : ∀ c ∈ text.toList, isKept c = true)
    (htokens : Scanner.tokens? text.toList =
      some (.blockMappingStart :: Scanner.keyTokens key ++ (ts ++ [YamlToken.blockEnd])))
    (hreads : NodeReader.Reads Stream.standardHandles n ts) (hdenotes : Denotes 127 n v) :
    Value.ofDocument? text = some (.mapping [(.string key, v)]) := by
  have hvalue : Denotes 128 (.mapping .none [(.scalar .none .plain key, n)])
      (.mapping [(.string key, v)]) :=
    denotes_mapping (l := [()]) (f := fun _ => (.scalar .none .plain key, n))
      (g := fun _ => (.string key, v)) (by simp [denotes_word hkey, hdenotes]) rfl
  exact Value.ofDocument?_of_denotes (parse?_key hkept htokens hreads) hvalue

/-- A document with a single key at the left. -/
theorem Value.ofDocument?_single (hkey : isStringWord key = true)
    (htext : text.toList = key.toList ++ ':' :: rest) (hrest : ∀ c ∈ rest, isKept c = true)
    (htokens : Scanner.tokens? (key.toList ++ ':' :: rest) =
      some (.blockMappingStart :: Scanner.keyTokens key ++ (ts ++ [YamlToken.blockEnd])))
    (hreads : NodeReader.Reads Stream.standardHandles n ts) (hdenotes : Denotes 127 n v) :
    Value.ofDocument? text = some (.mapping [(.string key, v)]) :=
  Value.ofDocument?_key hkey (isKept_single hkey htext hrest) (htext ▸ htokens) hreads hdenotes

/-- A scalar under a single key is what its spelling denotes, if it denotes anything. -/
theorem Value.ofDocument?_scalar {style : Style} {w : String} (hkey : isStringWord key = true)
    (htext : text.toList = key.toList ++ ':' :: rest) (hrest : ∀ c ∈ rest, isKept c = true)
    (htokens : Scanner.tokens? (key.toList ++ ':' :: rest) =
      some (.blockMappingStart :: Scanner.keyTokens key ++
        ([.scalar style w] ++ [YamlToken.blockEnd]))) :
    Value.ofDocument? text =
      (Reader.spelled style w).map fun v => .mapping [(.string key, v)] := by
  have hreads : NodeReader.Reads Stream.standardHandles (.scalar .none style w)
      [.scalar style w] := NodeReader.reads_scalar style w
  cases hspelled : Reader.spelled style w with
  | some v =>
      exact Value.ofDocument?_single hkey htext hrest htokens hreads (denotes_scalar hspelled 127)
  | none =>
      have hfails (d : Document) (left : Nat) :
          ((Reader.value 127 (.scalar .none style w)).run d).run left = none := by
        rw [run_value_scalar, hspelled]
        rfl
      have hentries (d : Document) (left : Nat) :
          (([(Node.scalar .none .plain key, Node.scalar .none style w)].mapM
            (readEntry 127)).run d).run left = none := by
        simp [readEntry, denotes_word hkey 127 d left, hfails d left]
      have hroot (d : Document) (left : Nat) : ((Reader.value 128 (.mapping .none
          [(.scalar .none .plain key, .scalar .none style w)])).run d).run left = none := by
        rw [Reader.value, Reader.valueFor]
        simp only [Reader.follow, pure_bind]
        change ((List.mapM (readEntry 127) _ >>= _ : Reader Value).run d).run left = _
        rw [ReaderT.run_bind, StateT.run_bind, hentries]
        rfl
      have hparse := parse?_key (isKept_single hkey htext hrest) (htext ▸ htokens) hreads
      rw [Value.ofDocument?, hparse, Option.bind_some, Document.read?, Document.ofRoot,
        Option.getD_some]
      simp [hroot]

/-- The text of a block that comes first in a document is the value of the single key. -/
theorem Value.eq_of_ofDocument? {w : String} (hkey : isStringWord key = true)
    (hkept : ∀ c ∈ text.toList, isKept c = true) (htokens : Scanner.tokens? text.toList = some ts)
    (hts : .blockMappingStart :: Scanner.keyTokens key ++ [YamlToken.scalar .literal w] <+: ts)
    (h : Value.ofDocument? text = some (.mapping [(.string key, v)])) : v = .string w := by
  rw [Value.ofDocument?, parse?_eq_bind hkept, htokens, Option.bind_some] at h
  obtain ⟨d, hd, h⟩ := Option.bind_eq_some_iff.mp h
  obtain ⟨root, hroot, rfl⟩ := Option.map_eq_some_iff.mp hd
  obtain ⟨es, rfl⟩ := NodeReader.exists_root?_eq hts hroot
  obtain ⟨⟨x, left⟩, hread, hx⟩ := Option.map_eq_some_iff.mp h
  obtain ⟨vs, hvs⟩ := exists_eq_mapping (denotes_word hkey 127)
    (denotes_scalar (rfl : Reader.spelled .literal w = some (.string w)) 127) hread
  obtain rfl : x = .mapping [(.string key, v)] := hx
  simp only [Value.mapping.injEq, List.cons.injEq, Prod.mk.injEq, true_and] at hvs
  exact hvs.1

/-- A word to a word. -/
theorem Value.ofDocument?_word {w : String} (hkey : isStringWord key = true)
    (hw : isStringWord w = true) (htext : text.toList = key.toList ++ ':' :: ' ' :: w.toList) :
    Value.ofDocument? text = some (.mapping [(.string key, .string w)]) := by
  have htokens := Scanner.tokens?_word (isWordEntry_of_isStringWord hkey hw)
  refine Value.ofDocument?_single hkey htext ?_ htokens (NodeReader.reads_scalar .plain w)
    (denotes_word hw 127)
  rw [List.forall_mem_cons]
  exact ⟨by decide, isKept_of_isStringWord hw⟩

/-- A word to the empty mapping. -/
theorem Value.ofDocument?_braces (hkey : isStringWord key = true)
    (htext : text.toList = key.toList ++ ':' :: ' ' :: ['\x7b', '\x7d']) :
    Value.ofDocument? text = some (.mapping [(.string key, .mapping [])]) := by
  obtain ⟨hword, hlength, -⟩ := isStringWord_iff.mp hkey
  exact Value.ofDocument?_single hkey htext (List.all_eq_true.mp (by decide))
    (Scanner.tokens?_braces hword hlength)
    NodeReader.reads_braces (denotes_mapping (α := (Node × Node) × (Value × Value)) (l := [])
      (f := (·.1)) (g := (·.2)) nofun rfl)

/-- A word to a mapping of words to words. -/
theorem Value.ofDocument?_entries (hkey : isStringWord key = true) {es : List (String × String)}
    (hne : es ≠ []) (hes : ∀ e ∈ es, isStringWord e.1 = true ∧ isStringWord e.2 = true)
    (hkeys : (es.map (·.1)).Nodup) {indent : Nat} (hindent : 0 < indent)
    (htext : text.toList = key.toList ++ ':' :: es.flatMap (Scanner.entryLine indent)) :
    Value.ofDocument? text = some (.mapping
      [(.string key, .mapping (es.map fun e => (.string e.1, .string e.2)))]) := by
  obtain ⟨e, es, rfl⟩ := List.exists_cons_of_ne_nil hne
  obtain ⟨hword, hlength, -⟩ := isStringWord_iff.mp hkey
  have htokens := Scanner.tokens?_entries hword hlength
    (fun e he => isWordEntry_of_isStringWord (hes e he).1 (hes e he).2) hindent
  refine Value.ofDocument?_single hkey htext ?_ ?_ (NodeReader.reads_mapping
    (NodeReader.readsEntries_words (e :: es))) (denotes_mapping ?_
      (keysDistinct_of_nodup (.string ·.2) hkeys))
  · rw [List.forall_mem_flatMap]
    exact fun e he => isKept_of_entryLine indent (hes e he).1 (hes e he).2
  · simpa [Scanner.closing, List.replicate_succ] using htokens
  · exact fun e he => ⟨denotes_word (hes e he).1 126, denotes_word (hes e he).2 126⟩

end AgentPipeline.Yaml
