import AgentPipeline.Proofs.Yaml.Word

/-!
# Scanning block mappings

A scanner **yields** some tokens, or none, if it comes to that with any fuel that exceeds what it
has left to read (`Scanner.Yields`). What it yields is found out from back to front: each lemma
below says what is yielded in front of a key, a value or white space, given what is yielded behind
it.

All of this happens outside of brackets and without a candidate for a key (`Scanner.block`). In
between, a word that may be a key is such a candidate, until the colon behind it makes it one
(`yields_key`).
-/

namespace AgentPipeline.Yaml.Scanner

variable {s s₁ s₂ : Scanner} {c : Char} {cs rest w : List Char} {p : Position}
  {tokens : List YamlToken} {ts : Option (List YamlToken)} {columns : List Nat} {allowed : Bool}

/-- The scanner comes to some tokens, or fails, with any fuel that exceeds what it has left to
read. -/
def Yields (s : Scanner) (ts : Option (List YamlToken)) : Prop :=
  ∀ fuel, s.rest.length < fuel → run fuel s = ts

/-- A scanner outside of brackets, without a candidate for a key. -/
def block (rest : List Char) (p : Position) (tokens : List YamlToken) (columns : List Nat)
    (allowed : Bool) : Scanner :=
  ⟨rest, p, tokens.toArray, columns, allowed, none, []⟩

/-- The tokens of a key up to its colon. -/
def keyTokens (key : String) : List YamlToken :=
  [.key, .scalar .plain key, .value]

/-- The tokens behind the last entries of some block collections. -/
def closing (n : Nat) : List YamlToken :=
  List.replicate n .blockEnd

/-! ### Rounds -/

/-- One round of the scanner: it passes over white space and reads a token. -/
theorem Yields.of_fetch (hpass : s.passGap.refreshAll = some s₁)
    (hrest : s₁.closeDeeper.rest = c :: cs) (hfetch : s₁.closeDeeper.fetch c cs = some s₂)
    (hlt : s₂.rest.length < s.rest.length) (h : s₂.Yields ts) : s.Yields ts := by
  intro fuel hfuel
  cases fuel with
  | zero => cases hfuel
  | succ fuel =>
      simp only [run, hpass, hrest, hfetch, Option.bind_eq_bind, Option.bind_some]
      exact h fuel (by omega)

/-- White space that is passed over does not count. -/
theorem Yields.of_passGap (hpass : s.passGap = s₁.passGap) (hle : s₁.rest.length ≤ s.rest.length)
    (h : s₁.Yields ts) : s.Yields ts := by
  intro fuel hfuel
  rw [← h fuel (by omega)]
  cases fuel with
  | zero => rfl
  | succ fuel => rw [run, run, hpass]

/-- Whether a character is visible: neither white space nor the start of a comment. -/
def isVisible (c : Char) : Bool :=
  !isBlankOrBreak c && c != '#' && !isByteOrderMark c

/-- Letters are visible. -/
theorem isVisible_of_isAlpha (hc : c.isAlpha = true) : isVisible c = true := by
  have hname := isNameChar_of_isAlpha hc
  have hblank := isBlankOrBreak_of_isNameChar hname
  have hcomment : c ≠ '#' := ne_of_isNameChar hname (by decide)
  have hmark : isByteOrderMark c = false := by
    have hlt := (toNat_of_isNameChar hname).2
    rw [isByteOrderMark, beq_eq_false_iff_ne]
    omega
  simp [isVisible, hblank, hcomment, hmark]

/-- In front of a visible character there is no gap. -/
theorem passGap_of_isVisible (hrest : s.rest = c :: cs) (hc : isVisible c = true) :
    s.passGap = s := by
  simp only [isVisible, isBlankOrBreak, Bool.and_eq_true, Bool.not_eq_true',
    Bool.or_eq_false_iff, beq_eq_false_iff_ne, bne_iff_ne] at hc
  obtain ⟨⟨⟨⟨hspace, htab⟩, hbreak⟩, hcomment⟩, hmark⟩ := hc
  obtain ⟨rest, p, tokens, columns, allowed, candidate, outer⟩ := s
  obtain rfl : rest = c :: cs := hrest
  simp [passGap, passFrom, hspace, htab, hbreak, hcomment, hmark]

/-- A round where there is no gap only reads a token, if no candidate is given up and no collection
is closed. -/
theorem Yields.of_noGap (hpass : s.passGap = s) (hrest : s.rest = c :: cs)
    (hrefresh : s.refreshAll = some s) (hdeeper : s.closeDeeper = s)
    (hfetch : s.fetch c cs = some s₂) (hle : s₂.rest.length ≤ cs.length) (h : s₂.Yields ts) :
    s.Yields ts := by
  have hround : s.passGap.refreshAll = some s := by rw [hpass, hrefresh]
  have hlt : s₂.rest.length < s.rest.length := by
    rw [hrest]
    exact Nat.lt_succ_of_le hle
  exact .of_fetch hround (hdeeper.symm ▸ hrest) (hdeeper.symm ▸ hfetch) hlt h

/-- A round in front of a visible character. -/
theorem Yields.of_isVisible (hrest : s.rest = c :: cs) (hc : isVisible c = true)
    (hrefresh : s.refreshAll = some s) (hdeeper : s.closeDeeper = s)
    (hfetch : s.fetch c cs = some s₂) (hle : s₂.rest.length ≤ cs.length) (h : s₂.Yields ts) :
    s.Yields ts :=
  .of_noGap (passGap_of_isVisible hrest hc) hrest hrefresh hdeeper hfetch hle h

/-- Where no token can be read the scanner fails. -/
theorem Yields.of_fetch_eq_none (hrest : s.rest = c :: cs) (hc : isVisible c = true)
    (hrefresh : s.refreshAll = some s) (hdeeper : s.closeDeeper = s)
    (hfetch : s.fetch c cs = none) : s.Yields none := by
  intro fuel hfuel
  cases fuel with
  | zero => rfl
  | succ fuel =>
      rw [run, passGap_of_isVisible hrest hc, hrefresh, Option.bind_eq_bind, Option.bind_some,
        hdeeper]
      simp only [hrest, hfetch]
      rfl

/-- Nothing is closed as long as no open collection is indented further. -/
theorem closeDeeper_eq (hcolumn : ∀ column ∈ s.columns.head?, column ≤ s.position.column) :
    s.closeDeeper = s := by
  have hnone : s.columns.takeWhile (s.position.column < ·) = [] := by
    cases hcolumns : s.columns with
    | nil => rfl
    | cons column columns =>
        have hle := hcolumn column (by rw [hcolumns]; rfl)
        exact List.takeWhile_cons_of_neg (by simpa using hle)
  rw [closeDeeper, hnone]
  simp [closeBlocks]

/-- Closing some blocks gives a token for each. -/
theorem closeBlocks_block (n : Nat) :
    (block rest p tokens columns allowed).closeBlocks n =
      block rest p (tokens ++ closing n) (columns.drop n) allowed := by
  simp [closeBlocks, block, closing]

/-! ### White space -/

/-- A space in front changes nothing. -/
theorem yields_space (h : (block rest (p.next ' ') tokens columns allowed).Yields ts) :
    (block (' ' :: rest) p tokens columns allowed).Yields ts := by
  refine .of_passGap ?_ (Nat.le_succ _) h
  simp [passGap, block, passFrom, inFlow, isBreak]

/-- Nor do several spaces. -/
theorem yields_spaces (n : Nat)
    (h : (block rest (p.skip (List.replicate n ' ')) tokens columns allowed).Yields ts) :
    (block (List.replicate n ' ' ++ rest) p tokens columns allowed).Yields ts := by
  induction n generalizing p with
  | zero => exact h
  | succ n ih => exact yields_space (ih h)

/-- On a new line a key may start. -/
theorem yields_break (h : (block rest (p.nextLine '\n') tokens columns true).Yields ts) :
    (block ('\n' :: rest) p tokens columns allowed).Yields ts := by
  refine .of_passGap ?_ (Nat.le_succ _) h
  simp [passGap, block, passFrom, inFlow, isBreak]

/-- At the end all collections are closed. -/
theorem yields_end :
    (block [] p tokens columns allowed).Yields (some (tokens ++ closing columns.length)) := by
  intro fuel hfuel
  cases fuel with
  | zero => cases hfuel
  | succ fuel =>
      have hdeeper : (block [] p tokens columns allowed).closeDeeper =
          (block [] p tokens columns allowed).closeBlocks
            (columns.takeWhile (p.column < ·)).length := rfl
      have hall : ∀ tokens columns, (block [] p tokens columns allowed).closeAll =
          (block [] p tokens columns allowed).closeBlocks columns.length := fun _ _ => rfl
      have hrun : run (fuel + 1) (block [] p tokens columns allowed) =
          some ((block [] p tokens columns allowed).closeDeeper.closeAll).tokens.toList := rfl
      have hle := (List.takeWhile_sublist (p := fun x => decide (p.column < x))
        (l := columns)).length_le
      rw [hrun, hdeeper, closeBlocks_block, hall, closeBlocks_block]
      simp only [block, closing, List.append_assoc, List.replicate_append_replicate,
        List.length_drop]
      rw [Nat.add_sub_cancel' hle]

/-! ### Words -/

/-- The characters that start anything but a plain scalar. -/
def indicators : List Char :=
  ['-', '?', ':', ',', '[', ']', '\x7b', '\x7d', '#', '&', '*', '!', '|', '>', '\'', '"', '%',
    '@', '\x60']

/-- Any other character starts a plain scalar, where no mark between documents stands. -/
theorem fetch_of_notIndicator {s : Scanner} (hother : ∀ d ∈ indicators, c ≠ d)
    (hblank : isBlankOrBreak c = false)
    (hmark : ¬(s.position.column = 0 ∧ isDocumentMark (c :: cs) = true)) :
    s.fetch c cs = s.fetchPlain := by
  have hcontains : indicators.contains c = false := by
    rw [List.contains_eq_mem, decide_eq_false_iff_not]
    exact fun hmem => hother c hmem rfl
  have hplain : startsPlain s.inFlow c cs.head? = true := by
    change (!(isBlankOrBreak c || indicators.contains c) || _ || _) = true
    rw [hcontains, hblank]
    rfl
  simp only [indicators, List.forall_mem_cons] at hother
  simp [fetch, hmark, hplain, hother]

/-- A letter starts a plain scalar. -/
theorem fetch_of_isAlpha (hc : c.isAlpha = true) (s : Scanner) :
    s.fetch c cs = s.fetchPlain := by
  have hother : ∀ d ∈ indicators, c ≠ d := by
    have hindicators : indicators.all (!Char.isAlpha ·) = true := by decide
    rintro d hd rfl
    simpa [hc] using List.all_eq_true.mp hindicators c hd
  refine fetch_of_notIndicator hother (isBlankOrBreak_of_isNameChar (isNameChar_of_isAlpha hc)) ?_
  simp [isDocumentMark_of_isAlpha hc]

/-- A round of the scanner in front of a word. -/
theorem yields_of_fetchPlain (hw : isWord w = true)
    (hcolumn : ∀ column ∈ columns.head?, column ≤ p.column)
    (hfetch : (block (w ++ rest) p tokens columns allowed).fetchPlain = some s)
    (hle : s.rest.length ≤ rest.length) (h : s.Yields ts) :
    (block (w ++ rest) p tokens columns allowed).Yields ts := by
  cases w with
  | nil => cases hw
  | cons c cs =>
      have hc : c.isAlpha = true := (Bool.and_eq_true_iff.mp hw).1
      refine .of_isVisible rfl (isVisible_of_isAlpha hc) rfl (closeDeeper_eq hcolumn) ?_ ?_ h
      · rw [← hfetch]
        exact fetch_of_isAlpha hc _
      · change s.rest.length ≤ (cs ++ rest).length
        rw [List.length_append]
        omega

/-- A word where no key may start is a scalar. -/
theorem yields_word {l : Lexeme} {column : Nat} {outer : List Nat} (hw : isWord w = true)
    (hcolumn : column ≤ p.column)
    (hread : readPlain false (column + 1) .none w.reverse (p.skip w) rest = some l)
    (hle : l.rest.length ≤ rest.length)
    (h : (block l.rest l.position (tokens ++ [YamlToken.scalar .plain l.text]) (column :: outer)
      l.brokeLine).Yields ts) :
    (block (w ++ rest) p tokens (column :: outer) false).Yields ts := by
  have hread : readPlain false (column + 1) .none [] p (w ++ rest) = some l := by
    rw [readPlain_word hw, List.append_nil, hread]
  refine yields_of_fetchPlain hw (by rintro _ ⟨⟩; exact hcolumn) ?_ hle h
  change (readPlain false (column + 1) .none [] p (w ++ rest)).bind _ = _
  rw [hread]
  simp [block, pushScalar, push]

/-- A token inserted behind some tokens stands between these and the later ones. -/
theorem insertIdx_length_append (tokens later : List YamlToken) (t : YamlToken) :
    (tokens ++ later).insertIdx tokens.length t = tokens ++ t :: later := by
  induction tokens with
  | nil => rfl
  | cons t' tokens ih => simp [ih]

/-- The scanner in front of the colon of a key that starts at the place `p`. -/
def beforeColon (w rest : List Char) (p : Position) (tokens : List YamlToken)
    (columns : List Nat) : Scanner :=
  let tokens' := tokens ++ [YamlToken.scalar .plain (String.ofList w)]
  { block (':' :: rest) (p.skip w) tokens' columns false with
    candidate := some ⟨tokens.length, p, columns.head? == some p.column⟩ }

/-- The scanner behind the colon: the candidate has become a key, and a mapping is open at its
column. -/
def afterColon (w rest : List Char) (p : Position) (tokens : List YamlToken)
    (columns : List Nat) : Scanner :=
  let tokens' := tokens ++ [YamlToken.key, .scalar .plain (String.ofList w)]
  let s := (block (':' :: rest) (p.skip w) tokens' columns false).openBlock p.column tokens.length
    .blockMappingStart
  ((s.skip 1).allowKey false).push .value

/-- A word where a key may start is a candidate for a key. -/
theorem fetchPlain_eq_beforeColon (hw : isWord w = true) (hends : endsWord rest.head? = true) :
    (block (w ++ ':' :: rest) p tokens columns true).fetchPlain =
      some (beforeColon w rest p tokens columns) := by
  have hread : ∀ least, readPlain false least .none [] p (w ++ ':' :: rest) =
      some ⟨String.ofList w, false, p.skip w, ':' :: rest⟩ := by
    intro least
    rw [readPlain_word hw, readPlain_colon hends, List.append_nil, List.reverse_reverse]
  change (readPlain false _ .none [] p (w ++ ':' :: rest)).bind _ = _
  rw [hread]
  simp [beforeColon, block, pushScalar, push, inFlow]

/-- A key of up to 1024 letters is not given up before its colon. -/
theorem refreshAll_beforeColon (hw : isWord w = true) (hlength : w.length ≤ 1024) :
    (beforeColon w rest p tokens columns).refreshAll =
      some (beforeColon w rest p tokens columns) := by
  have hindex := p.index_skip fun c hc => isNameChar_of_isWord hw hc
  have hkeep : ¬(p.line < (p.skip w).line ∨ p.index + 1024 < (p.skip w).index) := by
    rw [Position.line_skip, hindex]
    omega
  simp [refreshAll, beforeColon, block, refresh, hkeep]

/-- The colon turns the candidate into a key. -/
theorem fetch_beforeColon (hends : endsWord rest.head? = true) :
    (beforeColon w rest p tokens columns).fetch ':' rest =
      some (afterColon w rest p tokens columns) := by
  have hmark : isDocumentMark (':' :: rest) = false := rfl
  have hvalue : (beforeColon w rest p tokens columns).fetch ':' rest =
      (beforeColon w rest p tokens columns).fetchValue := by
    simp [fetch, hmark, hends]
  rw [hvalue]
  simp [fetchValue, beforeColon, afterColon, block, insertIdx_length_append]

/-- A word where a key may start is a key if a colon stands behind it. -/
theorem yields_key (hw : isWord w = true) (hlength : w.length ≤ 1024)
    (hcolumn : ∀ column ∈ columns.head?, column ≤ p.column) (hends : endsWord rest.head? = true)
    (h : (afterColon w rest p tokens columns).Yields ts) :
    (block (w ++ ':' :: rest) p tokens columns true).Yields ts := by
  have hrest : (afterColon w rest p tokens columns).rest = rest := by
    simp only [afterColon, push, allowKey, skip, openBlock]
    split <;> rfl
  have hdeeper : (beforeColon w rest p tokens columns).closeDeeper =
      beforeColon w rest p tokens columns :=
    closeDeeper_eq fun column hmem =>
      Nat.le_trans (hcolumn column hmem) (Position.column_le_skip p w)
  -- the first round finds a candidate, the second one the colon that makes it a key
  have hcolon : (beforeColon w rest p tokens columns).Yields ts :=
    .of_isVisible rfl (by decide) (refreshAll_beforeColon hw hlength) hdeeper
      (fetch_beforeColon hends) (Nat.le_of_eq (congrArg _ hrest)) h
  exact yields_of_fetchPlain hw hcolumn (fetchPlain_eq_beforeColon hw hends) (Nat.le_refl _)
    hcolon

/-- The first key of a mapping opens it. -/
theorem yields_firstKey (hw : isWord w = true) (hlength : w.length ≤ 1024)
    (hcolumn : ∀ column ∈ columns.head?, column < p.column) (hends : endsWord rest.head? = true)
    (h : (block rest (p.skip (w ++ [':']))
      (tokens ++ YamlToken.blockMappingStart :: keyTokens (String.ofList w))
      (p.column :: columns) false).Yields ts) :
    (block (w ++ ':' :: rest) p tokens columns true).Yields ts := by
  have hdeeper : columns.head?.all (· < p.column) = true := by
    simpa [Option.all_eq_true] using hcolumn
  have hafter : afterColon w rest p tokens columns = block rest (p.skip (w ++ [':']))
      (tokens ++ YamlToken.blockMappingStart :: keyTokens (String.ofList w))
      (p.column :: columns) false := by
    simp [afterColon, openBlock, inFlow, isDeeper, block, hdeeper, insertIdx_length_append, skip,
      allowKey, push, keyTokens, Position.skip_append]
  exact yields_key hw hlength (fun column h => Nat.le_of_lt (hcolumn column h)) hends
    (hafter ▸ h)

/-- A further key of a mapping stands in the column of the first one. -/
theorem yields_nextKey {column : Nat} {outer : List Nat} (hw : isWord w = true)
    (hlength : w.length ≤ 1024) (hcolumn : p.column = column) (hends : endsWord rest.head? = true)
    (h : (block rest (p.skip (w ++ [':']))
      (tokens ++ keyTokens (String.ofList w)) (column :: outer) false).Yields ts) :
    (block (w ++ ':' :: rest) p tokens (column :: outer) true).Yields ts := by
  have hafter : afterColon w rest p tokens (column :: outer) = block rest (p.skip (w ++ [':']))
      (tokens ++ keyTokens (String.ofList w)) (column :: outer) false := by
    simp [afterColon, openBlock, inFlow, isDeeper, block, hcolumn, skip, allowKey, push,
      keyTokens, Position.skip_append]
  refine yields_key hw hlength ?_ hends (hafter ▸ h)
  rintro _ ⟨⟩
  exact Nat.le_of_eq hcolumn.symm

/-! ### Mappings of words -/

/-- Whether an entry of a mapping consists of two words, the first of which can be a key. -/
def IsWordEntry (e : String × String) : Prop :=
  isWord e.1.toList = true ∧ e.1.length ≤ 1024 ∧ isWord e.2.toList = true

/-- An entry on a line of its own. -/
def entryLine (indent : Nat) (e : String × String) : List Char :=
  '\n' :: (List.replicate indent ' ' ++ (e.1.toList ++ ':' :: ' ' :: e.2.toList))

/-- The lines of entries start with a line feed, the margin and the first entry. -/
theorem flatMap_entryLine_cons (indent : Nat) (e : String × String)
    (es : List (String × String)) : (e :: es).flatMap (entryLine indent) =
      '\n' :: (List.replicate indent ' ' ++ (e.1.toList ++
        ':' :: ' ' :: (e.2.toList ++ es.flatMap (entryLine indent)))) := by
  simp [entryLine]

/-- The tokens of an entry. -/
def entryTokens (e : String × String) : List YamlToken :=
  keyTokens e.1 ++ [YamlToken.scalar .plain e.2]

/-- Behind the colon of a key, the value and the further entries are read. -/
theorem yields_value (tokens : List YamlToken) (outer : List Nat) {v : String} {column : Nat}
    {es : List (String × String)} (hv : isWord v.toList = true)
    (hes : ∀ e ∈ es, IsWordEntry e) (hcolumn : column ≤ p.column) :
    (block (' ' :: (v.toList ++ es.flatMap (entryLine column))) p tokens (column :: outer)
      false).Yields (some (tokens ++ [YamlToken.scalar .plain v] ++
        (es.flatMap entryTokens ++ closing (outer.length + 1)))) := by
  induction es generalizing v p tokens with
  | nil =>
      refine yields_space (yields_word (l := ⟨v, false, (p.next ' ').skip v.toList, []⟩) hv
        (Nat.le_succ_of_le hcolumn) ?_ (Nat.le_refl _) yields_end)
      simp [readPlain, Gap.isBroken]
  | cons e es ih =>
      obtain ⟨⟨hkey, hlength, hvalue⟩, hes⟩ := List.forall_mem_cons.mp hes
      -- the reader of the value goes on to the next key and passes its indentation
      let q := ((p.next ' ').skip v.toList).indented column
      have hread (rest : List Char) : readPlain false (column + 1) .none v.toList.reverse
          ((p.next ' ').skip v.toList)
          ('\n' :: (List.replicate column ' ' ++ (e.1.toList ++ rest))) =
            some ⟨v, true, q, e.1.toList ++ rest⟩ := by
        rw [readPlain_break (Nat.lt_succ_self column) hkey, List.reverse_reverse,
          String.ofList_toList]
      have hbehind := ih (p := q.skip (e.1.toList ++ [':']))
        (tokens ++ [YamlToken.scalar .plain v] ++ keyTokens e.1) hvalue hes
        (Position.le_column_indented _ column _)
      rw [flatMap_entryLine_cons]
      refine yields_space (yields_word hv (Nat.le_succ_of_le hcolumn) (hread _) ?_
        (yields_nextKey hkey hlength (Position.column_indented _ column) rfl ?_))
      · simp only [List.length_cons, List.length_append]
        omega
      · simpa [entryTokens] using hbehind

/-- The scanner between two curly brackets. -/
def betweenBraces (rest : List Char) (p : Position) (tokens : List YamlToken)
    (columns : List Nat) : Scanner :=
  let tokens' := tokens ++ [YamlToken.flowMappingStart]
  { block ('\x7d' :: rest) (p.next '\x7b') tokens' columns true with outer := [none] }

/-- A pair of curly brackets with nothing in it is an empty mapping. -/
theorem yields_braces (hcolumn : ∀ column ∈ columns.head?, column ≤ p.column)
    (h : (block rest ((p.next '\x7b').next '\x7d')
      (tokens ++ [YamlToken.flowMappingStart, .flowMappingEnd]) columns false).Yields ts) :
    (block ('\x7b' :: '\x7d' :: rest) p tokens columns false).Yields ts := by
  have hopen : (block ('\x7b' :: '\x7d' :: rest) p tokens columns false).fetch '\x7b'
      ('\x7d' :: rest) = some (betweenBraces rest p tokens columns) := by
    simp [fetch, isDocumentMark, fetchFlowStart, saveCandidate, betweenBraces, block, skip,
      allowKey, push, Position.skip]
  have hclose : (betweenBraces rest p tokens columns).fetch '\x7d' rest =
      some (block rest ((p.next '\x7b').next '\x7d')
        (tokens ++ [YamlToken.flowMappingStart, .flowMappingEnd]) columns false) := by
    simp [fetch, isDocumentMark, fetchFlowEnd, dropCandidate, withdraw, betweenBraces, block, skip,
      allowKey, push, Position.skip]
  exact .of_isVisible rfl (by decide) rfl (closeDeeper_eq hcolumn) hopen (Nat.le_refl _)
    (.of_isVisible rfl (by decide) rfl rfl hclose (Nat.le_refl _) h)

/-! ### Documents -/

/-- A document that is a mapping starts with its first key, at some column, and behind the colon of
the key the scanner goes on. -/
theorem exists_tokens?_key {key : String} (column : Nat) (rest : List Char)
    (hkey : isWord key.toList = true) (hlength : key.length ≤ 1024)
    (hends : endsWord rest.head? = true) :
    ∃ p : Position, column < p.column ∧ ∀ ts,
      (block rest p (.blockMappingStart :: keyTokens key) [column] false).Yields ts →
        tokens? (List.replicate column ' ' ++ (key.toList ++ ':' :: rest)) = ts := by
  let q := Position.skip ⟨0, 0, 0⟩ (List.replicate column ' ')
  have hq : q.column = column := by
    rw [Position.column_skip, List.length_replicate]
    exact Nat.zero_add column
  refine ⟨q.skip (key.toList ++ [':']), ?_, fun ts h => ?_⟩
  · rw [Position.column_skip, hq, List.length_append]
    exact Nat.lt_add_of_pos_right (Nat.succ_pos _)
  have hfirst : (block (key.toList ++ ':' :: rest) q [] [] true).Yields ts := by
    refine yields_firstKey hkey hlength nofun hends ?_
    rw [String.ofList_toList, hq]
    exact h
  exact yields_spaces column hfirst _ (Nat.lt_succ_self _)

/-- The tokens of a document with a single key are yielded behind the key. -/
theorem tokens?_of_yields {key : String} (hkey : isWord key.toList = true)
    (hlength : key.length ≤ 1024) (hends : endsWord rest.head? = true)
    (h : ∀ p : Position,
      (block rest p (.blockMappingStart :: keyTokens key) [0] false).Yields ts) :
    tokens? (key.toList ++ ':' :: rest) = ts := by
  obtain ⟨p, -, hp⟩ := exists_tokens?_key 0 rest hkey hlength hends
  exact hp ts (h p)

/-- The tokens of a mapping of a word to a word. -/
theorem tokens?_word {key v : String} (h : IsWordEntry (key, v)) :
    tokens? (key.toList ++ ':' :: ' ' :: v.toList) =
      some (.blockMappingStart :: keyTokens key ++ [.scalar .plain v, .blockEnd]) := by
  obtain ⟨hkey, hlength, hv⟩ := h
  refine tokens?_of_yields hkey hlength rfl fun p => ?_
  have hvalue := yields_value (.blockMappingStart :: keyTokens key) [] hv
    (List.forall_mem_nil IsWordEntry) (Nat.zero_le p.column)
  rwa [List.flatMap_nil, List.append_nil] at hvalue

/-- The tokens of a mapping of a word to the empty mapping. -/
theorem tokens?_braces {key : String} (hkey : isWord key.toList = true)
    (hlength : key.length ≤ 1024) :
    tokens? (key.toList ++ ':' :: ' ' :: ['\x7b', '\x7d']) =
      some (.blockMappingStart :: keyTokens key ++
        [.flowMappingStart, .flowMappingEnd, .blockEnd]) := by
  refine tokens?_of_yields hkey hlength rfl fun p => yields_space (yields_braces ?_ yields_end)
  rintro _ ⟨⟩
  exact Nat.zero_le _

/-- The tokens of a mapping of a word to a mapping of words. -/
theorem tokens?_entries {key : String} (hkey : isWord key.toList = true)
    (hlength : key.length ≤ 1024) {e : String × String} {es : List (String × String)}
    (hes : ∀ e' ∈ e :: es, IsWordEntry e') {indent : Nat} (hindent : 0 < indent) :
    tokens? (key.toList ++ ':' :: (e :: es).flatMap (entryLine indent)) =
      some (.blockMappingStart :: keyTokens key ++
        .blockMappingStart :: ((e :: es).flatMap entryTokens ++ closing 2)) := by
  obtain ⟨⟨hkey', hlength', hv⟩, hes⟩ := List.forall_mem_cons.mp hes
  refine tokens?_of_yields hkey hlength rfl fun p => ?_
  have hq : (p.indented indent).column = indent := Position.column_indented p indent
  have hvalue := yields_value (.blockMappingStart :: keyTokens key ++
    .blockMappingStart :: keyTokens e.1) [0] hv hes
    (p.le_column_indented indent (e.1.toList ++ [':']))
  rw [flatMap_entryLine_cons]
  refine yields_break (yields_spaces indent (yields_firstKey hkey' hlength' ?_ rfl ?_))
  · rintro _ ⟨⟩
    exact Nat.lt_of_lt_of_eq hindent hq.symm
  · change (block _ ((p.indented indent).skip _) _ ((p.indented indent).column :: _) _).Yields _
    rw [String.ofList_toList, hq]
    simpa [entryTokens] using hvalue

end AgentPipeline.Yaml.Scanner
