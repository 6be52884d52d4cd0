import AgentPipeline.Proofs.Text.Line
import AgentPipeline.Proofs.Yaml.Block
import AgentPipeline.Proofs.Yaml.Document
import AgentPipeline.Proofs.Yaml.Progress
import AgentPipeline.Proofs.Yaml.Scalar
import AgentPipeline.Yaml.Entry

/-!
# Reading the entry of a text with several lines

A text of several lines is written as a literal block. The header says how far the lines are
indented if the text starts with a space. If it starts with empty lines, however, the reader finds
the column of the lines from the first one that is not empty, and white space at the start of that
line is lost. So a text of several lines comes back just if its margin shows
(`Value.ofDocument?_entry_lines_iff`).

That another text is read otherwise, if any, is seen from the first tokens of the document: whatever
comes behind the block, they are settled by then.
-/

namespace AgentPipeline.Yaml

variable {c : Char} {cs xs ys rest : List Char} {n : Nat} {fresh : Bool}

/-! ### The lines of a block -/

/-- A line is indented if it is a new one and not empty. -/
theorem indentLines_of_notBreak (h : ∀ c ∈ xs, isBreak c = false) :
    indentLines n fresh xs = if fresh ∧ xs ≠ [] then List.replicate n ' ' ++ xs else xs := by
  induction xs generalizing fresh with
  | nil => simp [indentLines]
  | cons c xs ih =>
      rw [List.forall_mem_cons] at h
      rw [indentLines, if_neg (by simp [h.1]), ih h.2]
      cases fresh <;> simp

/-- Behind a line feed the next line is indented. -/
theorem indentLines_append_break (h : ∀ c ∈ xs, isBreak c = false) :
    indentLines n fresh (xs ++ '\n' :: ys) =
      indentLines n fresh xs ++ '\n' :: indentLines n true ys := by
  induction xs generalizing fresh with
  | nil => rfl
  | cons c xs ih =>
      rw [List.forall_mem_cons] at h
      simp [indentLines, h.1, ih h.2]

/-- A line of a block behind its line break. -/
theorem toList_blockLines_cons (n : Nat) (line : List Char) (lines : List String)
    (h : ∀ c ∈ line, isBreak c = false) :
    (blockLines n (String.ofList line :: lines)).toList =
      '\n' :: (indentLines n true line ++ (blockLines n lines).toList) := by
  rw [indentLines_of_notBreak h]
  cases line <;> simp [blockLines, pad, spaces]

/-- A line of a text whose line breaks are line feeds. -/
theorem notMem_of_breaks (hbreaks : ∀ c ∈ cs, isBreak c = true → c = '\n') (h : '\n' ∉ cs) :
    ∀ c ∈ cs, isBreak c = false := by
  intro c hc
  by_contra hbreak
  exact h (hbreaks c hc (by simpa using hbreak) ▸ hc)

/-- What stands behind a line feed ends like the whole text. -/
theorem getLast?_behind_newline (h : (xs ++ '\n' :: ys).getLast? ≠ some '\n') :
    ys ≠ [] ∧ ys.getLast? ≠ some '\n' := by
  constructor
  · rintro rfl
    simp at h
  · intro hys
    simp [List.getLast?_cons, hys] at h

/-- The lines of a block are its text, indented. -/
theorem toList_blockLines (hbreaks : ∀ c ∈ cs, isBreak c = true → c = '\n') (hne : cs ≠ [])
    (hlast : cs.getLast? ≠ some '\n') :
    (blockLines n ((Text.lines cs).map String.ofList)).toList = '\n' :: indentLines n true cs := by
  induction cs using Text.lines_induction with
  | line cs h =>
      have hline := notMem_of_breaks hbreaks h
      rw [Text.lines_of_notMem h hne, List.map_singleton, toList_blockLines_cons n cs [] hline]
      simp [blockLines]
  | cons xs ys h ih =>
      rw [List.forall_mem_append, List.forall_mem_cons] at hbreaks
      have hline := notMem_of_breaks hbreaks.1 h
      have hreturn : '\r' ∉ xs := fun hc => absurd (hline _ hc) (by decide)
      obtain ⟨hys, hlast'⟩ := getLast?_behind_newline hlast
      rw [Text.lines_newline h, Text.dropLineEnd_newline hreturn, List.map_cons,
        toList_blockLines_cons n xs _ hline, ih hbreaks.2.2 hys hlast',
        indentLines_append_break hline]

/-! ### Texts of several lines -/

/-- **A text of several lines** that a document can hold: there is a line feed in it and something
else, no line break of another form, and at most one line feed at its end. -/
structure IsMultiLine (cs : List Char) : Prop where
  allowed : ∀ c ∈ cs, isAllowed c = true
  breaks : ∀ c ∈ cs, isBreak c = true → c = '\n'
  several : '\n' ∈ cs
  visible : ∃ c ∈ cs, c ≠ '\n'
  last : ¬['\n', '\n'] <:+ cs

/-- The margin of a block with a text shows: the header gives it, or the first line that is not
empty starts with something else than white space. -/
def ShowsMargin (cs : List Char) : Prop :=
  cs.head? = some ' ' ∨ ShowsColumn cs

/-- A text shows the margin if it does so with more text behind it. -/
theorem ShowsColumn.of_append (h : ShowsColumn (xs ++ ys)) : ShowsColumn xs := by
  intro c hc
  refine h c ?_
  have hne : (xs.dropWhile isBreak).isEmpty = false := by
    cases hxs : xs.dropWhile isBreak with
    | nil => simp [hxs] at hc
    | cons => rfl
  rw [List.dropWhile_append, if_neg (by simp [hne]), List.head?_append]
  exact Option.or_eq_some_iff.mpr (.inl hc)

/-- What the header of the block of a text says. -/
def blockHeader (cs : List Char) : List Char :=
  (if cs.head? = some ' ' then ['2'] else []) ++ if cs.getLast? = some '\n' then [] else ['-']

/-- What is written in the lines of the block of a text. -/
def blockBody (cs : List Char) : List Char :=
  Text.dropTail (· == '\n') cs

namespace IsMultiLine

/-- What is written as a literal block is a text of several lines. -/
theorem of_all (hallowed : cs.all (fun c => isAllowed c && (!isBreak c || c == '\n')) = true)
    (hseveral : cs.contains '\n' = true) (hvisible : cs.any (· != '\n') = true)
    (hlast : ¬['\n', '\n'] <:+ cs) : IsMultiLine cs := by
  simp only [List.all_eq_true, Bool.and_eq_true, Bool.or_eq_true, Bool.not_eq_true',
    beq_iff_eq] at hallowed
  refine ⟨fun c hc => (hallowed c hc).1, fun c hc hbreak => ?_, ?_, ?_, hlast⟩
  · exact (hallowed c hc).2.resolve_left (by simp [hbreak])
  · simpa using hseveral
  · simpa using hvisible

/-- A text of several lines is the lines of its block and what the header says of its end. -/
theorem exists_tail (h : IsMultiLine cs) : ∃ tail, cs = blockBody cs ++ tail ∧
    blockBody cs ≠ [] ∧ (blockBody cs).getLast? ≠ some '\n' ∧
      ((cs.getLast? ≠ some '\n' ∧ tail = []) ∨ (cs.getLast? = some '\n' ∧ tail = ['\n'])) := by
  obtain ⟨tail, hcs, hbreaks⟩ := Text.exists_dropTail (· == '\n') cs
  change cs = blockBody cs ++ tail at hcs
  have htail : ∀ c ∈ tail, c = '\n' := fun c hc => beq_iff_eq.mp (hbreaks c hc)
  have hne : blockBody cs ≠ [] := by
    intro hnil
    obtain ⟨c, hc, hvisible⟩ := h.visible
    rw [hcs, hnil, List.nil_append] at hc
    exact hvisible (htail c hc)
  have hlast : (blockBody cs).getLast? ≠ some '\n' := fun hbreak =>
    absurd (Text.getLast?_dropTail _ cs _ hbreak) (by decide)
  refine ⟨tail, hcs, hne, hlast, ?_⟩
  rw [List.eq_replicate_of_mem htail] at hcs ⊢
  -- as only one line feed may stand at the end, the tail is at most one
  match hlength : tail.length with
  | 0 =>
      rw [hlength, List.replicate_zero, List.append_nil] at hcs
      exact .inl ⟨hcs ▸ hlast, rfl⟩
  | 1 =>
      rw [hlength] at hcs
      exact .inr ⟨by rw [hcs]; simp, rfl⟩
  | k + 2 =>
      have hsplit : List.replicate (k + 2) '\n' = List.replicate k '\n' ++ ['\n', '\n'] :=
        List.replicate_add k 2 _
      rw [hlength] at hcs
      refine absurd ⟨blockBody cs ++ List.replicate k '\n', ?_⟩ h.last
      rw [List.append_assoc, ← hsplit]
      exact hcs.symm

end IsMultiLine

/-! ### Tokens -/

namespace Scanner

variable {key w : String} {header lines : List Char} {chomping : Chomping} {indent : Option Nat}
  {ts : List YamlToken}

/-- The tokens of a mapping of a word at a column to a literal block that extends to the end. -/
theorem tokens?_literal (column : Nat) (hkey : isWord key.toList = true)
    (hlength : key.length ≤ 1024) (hheader : readBlockHeader header = some (chomping, indent))
    (hline : ∀ c ∈ header, isBreak c = false)
    (hread : ∀ p : Position, p.column = 0 → ∃ p',
      readBlock false (.literal chomping (indent.map (column + ·)) (column + 1)) p lines =
        some ⟨w, true, p', []⟩) :
    tokens? (spaces column ++ (key.toList ++ ':' :: ' ' :: '|' :: (header ++ '\n' :: lines))) =
      some (.blockMappingStart :: keyTokens key ++
        ([.scalar .literal w] ++ [YamlToken.blockEnd])) := by
  obtain ⟨p, hcolumn, hp⟩ := exists_tokens?_key column
    (' ' :: '|' :: (header ++ '\n' :: lines)) hkey hlength rfl
  obtain ⟨p', hp'⟩ := hread ((((p.next ' ').next '|').skip header).nextLine '\n') rfl
  have hfetch := fetch_literal (p.next ' ') (.blockMappingStart :: keyTokens key) column [] lines
    hheader hline
  rw [hp', Option.map_some] at hfetch
  refine hp _ (yields_space (.of_isVisible rfl (by decide) rfl
    (closeDeeper_block (Nat.le_succ_of_le (Nat.le_of_lt hcolumn))) hfetch (Nat.zero_le _) ?_))
  rw [← List.append_assoc]
  exact yields_end

/-- In front of a literal block nothing is read again: if there are tokens at all, the key and the
text of the block are the first ones. -/
theorem exists_prefix_tokens?_literal (column : Nat) (hkey : isWord key.toList = true)
    (hlength : key.length ≤ 1024) (hheader : readBlockHeader header = some (chomping, indent))
    (hline : ∀ c ∈ header, isBreak c = false)
    (h : tokens? (spaces column ++ (key.toList ++
      ':' :: ' ' :: '|' :: (header ++ '\n' :: lines))) = some ts) :
    ∃ p : Position, ∃ l, p.column = 0 ∧
      readBlock false (.literal chomping (indent.map (column + ·)) (column + 1)) p lines = some l ∧
        .blockMappingStart :: keyTokens key ++ [YamlToken.scalar .literal l.text] <+: ts := by
  obtain ⟨p, hcolumn, hp⟩ := exists_tokens?_key column
    (' ' :: '|' :: (header ++ '\n' :: lines)) hkey hlength rfl
  have hdeeper : column ≤ (p.next ' ').column := Nat.le_succ_of_le (Nat.le_of_lt hcolumn)
  have hfetch := fetch_literal (p.next ' ') (.blockMappingStart :: keyTokens key) column [] lines
    hheader hline
  cases hread : readBlock false (.literal chomping (indent.map (column + ·)) (column + 1))
      ((((p.next ' ').next '|').skip header).nextLine '\n') lines with
  | none =>
      rw [hread, Option.map_none] at hfetch
      have htokens := hp none (yields_space (.of_fetch_eq_none rfl (by decide) rfl
        (closeDeeper_block hdeeper) hfetch))
      cases htokens.symm.trans h
  | some l =>
      rw [hread, Option.map_some] at hfetch
      obtain ⟨ts', hts'⟩ := exists_yields (block l.rest l.position
        (.blockMappingStart :: keyTokens key ++ [YamlToken.scalar .literal l.text]) [column] true)
      have hle := (rest_suffix_of_readBlock hread).length_le
      have htokens := hp ts' (yields_space (.of_isVisible rfl (by decide) rfl
        (closeDeeper_block hdeeper) hfetch (by
          change l.rest.length ≤ (header ++ '\n' :: lines).length
          simp only [List.length_append, List.length_cons]
          omega) hts'))
      obtain rfl : ts' = some ts := htokens.symm.trans h
      exact ⟨_, l, rfl, hread, hts'.prefix_of_block⟩

end Scanner

/-! ### Documents -/

section Documents

variable {key text : String} {tail : List Char}

/-- The entry of such a text is its key, the header and the indented lines. -/
theorem toList_entry_of_isMultiLine (h : IsMultiLine text.toList) :
    (entry 0 key text).toList = key.toList ++ ':' :: ' ' :: '|' ::
      (blockHeader text.toList ++ '\n' :: indentLines 2 true (blockBody text.toList)) := by
  obtain ⟨tail, hcs, hne, hlast, -⟩ := h.exists_tail
  have hbreaks : ∀ c ∈ blockBody text.toList, isBreak c = true → c = '\n' := fun c hc =>
    h.breaks c (hcs ▸ List.mem_append_left _ hc)
  have hlines := toList_blockLines (n := 2) hbreaks hne hlast
  have hbody : Text.dropTail (· == '\n') text.toList = blockBody text.toList := rfl
  simp only [entry, literalBlock, List.contains_iff_mem, h.several, if_true, hbody, Nat.zero_add,
    String.toList_append, hlines]
  simp only [blockHeader]
  split <;> split <;> simp [pad, spaces]

/-- The header is read as the chomping and the margin that it was written for. -/
theorem readBlockHeader_blockHeader (cs : List Char) : Scanner.readBlockHeader (blockHeader cs) =
    some (if cs.getLast? = some '\n' then .clip else .strip,
      if cs.head? = some ' ' then some 2 else none) := by
  unfold blockHeader
  split <;> split <;> rfl

/-- The header breaks no line. -/
theorem isBreak_blockHeader (cs : List Char) : ∀ c ∈ blockHeader cs, isBreak c = false := by
  unfold blockHeader
  split <;> split <;> simp [isBreak]

/-- The text of a document that is the entry of a text of several lines, with or without a line
break behind it. -/
theorem toList_document (h : IsMultiLine text.toList) (tail : List Char) :
    (entry 0 key text ++ String.ofList tail).toList = key.toList ++ ':' :: ' ' :: '|' ::
      (blockHeader text.toList ++ '\n' ::
        (indentLines 2 true (blockBody text.toList) ++ tail)) := by
  rw [String.toList_append, toList_entry_of_isMultiLine h, String.toList_ofList]
  simp

/-- Indenting a text adds nothing that is not kept. -/
theorem isKept_of_mem_indentLines (hcs : ∀ c ∈ cs, isKept c = true) :
    ∀ c ∈ indentLines n fresh cs, isKept c = true := by
  induction cs generalizing fresh with
  | nil => nofun
  | cons d cs ih =>
      rw [List.forall_mem_cons] at hcs
      rw [indentLines]
      split
      · exact List.forall_mem_cons.mpr ⟨hcs.1, ih hcs.2⟩
      · rw [List.forall_mem_append]
        refine ⟨fun c hc => ?_, List.forall_mem_cons.mpr ⟨hcs.1, ih hcs.2⟩⟩
        split at hc
        · rw [List.eq_of_mem_replicate hc]
          decide
        · cases hc

/-- The characters of a text of several lines are kept. -/
theorem isKept_of_isMultiLine (h : IsMultiLine cs) : ∀ c ∈ cs, isKept c = true := by
  intro c hc
  cases hbreak : isBreak c with
  | true =>
      rw [h.breaks c hc hbreak]
      decide
  | false => exact isKept_of_isAllowed (h.allowed c hc) hbreak

/-- So are those of its entry behind the key. -/
theorem isKept_document (h : IsMultiLine text.toList) (htail : tail = [] ∨ tail = ['\n']) :
    ∀ c ∈ ' ' :: '|' :: (blockHeader text.toList ++ '\n' ::
      (indentLines 2 true (blockBody text.toList) ++ tail)), isKept c = true := by
  obtain ⟨_, hcs, -⟩ := h.exists_tail
  have hkept := isKept_of_isMultiLine h
  rw [hcs, List.forall_mem_append] at hkept
  have hheader : ∀ c ∈ blockHeader text.toList, isKept c = true := by
    unfold blockHeader
    split <;> split <;> exact List.all_eq_true.mp (by decide)
  have hend : ∀ c ∈ tail, isKept c = true := by
    rcases htail with rfl | rfl <;> exact List.all_eq_true.mp (by decide)
  simp only [List.forall_mem_cons, List.forall_mem_append]
  exact ⟨by decide, by decide, hheader, by decide, isKept_of_mem_indentLines hkept.1, hend⟩

/-- **Where the margin shows** the lines of the text are read back, and the line break behind the
block belongs to it if the text ends with one. -/
theorem Value.ofDocument?_of_showsMargin (tail : List Char) (hkey : isStringWord key = true)
    (h : IsMultiLine text.toList) (hshows : ShowsMargin text.toList)
    (htail : tail = [] ∨ tail = ['\n']) :
    Value.ofDocument? (entry 0 key text ++ String.ofList tail) =
      some (.mapping [(.string key, .string (String.ofList (blockBody text.toList ++
        if text.toList.getLast? = some '\n' then tail else [])))]) := by
  obtain ⟨hword, hlength, -⟩ := isStringWord_iff.mp hkey
  obtain ⟨end', hcs, hne, hlast, -⟩ := h.exists_tail
  have hbreaks : ∀ c ∈ blockBody text.toList, isBreak c = true → c = '\n' := fun c hc =>
    h.breaks c (hcs ▸ List.mem_append_left _ hc)
  have hindent : (if text.toList.head? = some ' ' then some 2 else none).map (0 + ·) = some 2 ∨
      ((if text.toList.head? = some ' ' then some 2 else none).map (0 + ·) = none ∧
        ShowsColumn (blockBody text.toList)) := by
    by_cases hspace : text.toList.head? = some ' '
    · exact .inl (by rw [if_pos hspace]; rfl)
    · refine .inr ⟨by rw [if_neg hspace]; rfl, ?_⟩
      exact (hcs ▸ hshows.resolve_left hspace : ShowsColumn (_ ++ end')).of_append
  have hread (p : Position) (hp : p.column = 0) := exists_readBlock_literal (p := p)
    (if text.toList.getLast? = some '\n' then .clip else .strip) 1 (by split <;> simp)
    (by omega) (by omega) hindent hp hbreaks hne hlast htail
  have htokens := Scanner.tokens?_literal 0 hword hlength (readBlockHeader_blockHeader text.toList)
    (isBreak_blockHeader text.toList) hread
  rw [Value.ofDocument?_scalar hkey (toList_document h tail) (isKept_document h htail) htokens]
  split <;> rfl

/-- **Where the margin does not show** another text is read, or nothing. -/
theorem showsMargin_of_ofDocument? (tail : List Char) (hkey : isStringWord key = true)
    (h : IsMultiLine text.toList) (htail : tail = [] ∨ tail = ['\n'])
    (hread : Value.ofDocument? (entry 0 key text ++ String.ofList tail) =
      some (.mapping [(.string key, .string text)])) : ShowsMargin text.toList := by
  by_contra hshows
  obtain ⟨hspace, hcolumn⟩ := not_or.mp hshows
  obtain ⟨hword, hlength, -⟩ := isStringWord_iff.mp hkey
  have hkept := isKept_single hkey (toList_document h tail) (isKept_document h htail)
  have hheader := readBlockHeader_blockHeader text.toList
  rw [if_neg hspace] at hheader
  cases htokens : Scanner.tokens? (entry 0 key text ++ String.ofList tail).toList with
  | none =>
      rw [Value.ofDocument?_of_tokens?_eq_none hkept htokens] at hread
      cases hread
  | some ts =>
      rw [toList_document h tail] at htokens
      obtain ⟨p, l, -, hblock, hprefix⟩ := Scanner.exists_prefix_tokens?_literal 0 hword hlength
        hheader (isBreak_blockHeader text.toList) htokens
      rw [← toList_document h tail] at htokens
      have htext := Value.eq_of_ofDocument? hkey hkept htokens hprefix hread
      obtain rfl : text = l.text := Value.string.inj htext
      exact hcolumn (showsColumn_of_readBlock rfl rfl rfl (by simp [Block.literal]) hblock)

end Documents

/-- **A text of several lines comes back from its entry** just if the margin of its block shows.
A line break at its end comes back if the line of the entry is ended. -/
theorem Value.ofDocument?_entry_lines_iff {key text : String} (hkey : isStringWord key = true)
    (h : IsMultiLine text.toList) :
    (Value.ofDocument? (entry 0 key text ++ "\n") =
        some (.mapping [(.string key, .string text)]) ↔ ShowsMargin text.toList) ∧
      (Value.ofDocument? (entry 0 key text) = some (.mapping [(.string key, .string text)]) ↔
        ShowsMargin text.toList ∧ text.toList.getLast? ≠ some '\n') := by
  obtain ⟨tail, hcs, -, -, htail⟩ := h.exists_tail
  -- with the line feed at the end, if there is one, the body is the text
  have hended : String.ofList (blockBody text.toList ++
      if text.toList.getLast? = some '\n' then ['\n'] else []) = text := by
    rw [← String.ofList_toList (s := text)]
    conv_rhs => rw [hcs]
    rcases htail with ⟨hlast, rfl⟩ | ⟨hlast, rfl⟩ <;> simp [hlast]
  have hopen : entry 0 key text ++ String.ofList [] = entry 0 key text := String.append_empty
  constructor
  · refine ⟨showsMargin_of_ofDocument? ['\n'] hkey h (.inr rfl), fun hshows => ?_⟩
    have hread := Value.ofDocument?_of_showsMargin ['\n'] hkey h hshows (.inr rfl)
    rwa [hended] at hread
  -- without a line feed behind it, the document loses the one of the text
  · have hread (hshows : ShowsMargin text.toList) :=
      Value.ofDocument?_of_showsMargin [] hkey h hshows (.inl rfl)
    rw [hopen, ite_self, List.append_nil] at hread
    constructor
    · intro hdocument
      have hshows := showsMargin_of_ofDocument? [] hkey h (.inl rfl)
        (hopen.symm ▸ hdocument)
      refine ⟨hshows, fun hlast => ?_⟩
      have heq := (hread hshows).symm.trans hdocument
      simp only [Option.some.injEq, Value.mapping.injEq, List.cons.injEq, Prod.mk.injEq,
        Value.string.injEq, true_and, and_true] at heq
      rcases htail with ⟨hlast', -⟩ | ⟨-, rfl⟩
      · exact hlast' hlast
      · have hbody : blockBody text.toList = text.toList := by
          simpa using congrArg String.toList heq
        have hlengths := congrArg List.length hcs
        rw [hbody, List.length_append] at hlengths
        exact absurd hlengths (by simp)
    · rintro ⟨hshows, hlast⟩
      rw [hread hshows]
      rcases htail with ⟨-, rfl⟩ | ⟨hlast', -⟩
      · rw [← String.ofList_toList (s := text)]
        conv_rhs => rw [hcs]
        simp
      · exact absurd hlast' hlast

/-- A text that starts with a space has its margin in the header of its block. -/
theorem Value.ofDocument?_entry_lines_indented :
    let text := "  a\n\n\tb: c\n"
    isStringWord "v" = true ∧ IsMultiLine text.toList ∧
      entry 0 "v" text = "v: |2\n    a\n\n  \tb: c" ∧
      (Value.ofDocument? (entry 0 "v" text ++ "\n") =
          some (.mapping [(.string "v", .string text)]) ↔ ShowsMargin text.toList) ∧
        (Value.ofDocument? (entry 0 "v" text) = some (.mapping [(.string "v", .string text)]) ↔
          ShowsMargin text.toList ∧ text.toList.getLast? ≠ some '\n') := by
  intro text
  have hkey : isStringWord "v" = true := by decide
  have hlines : IsMultiLine text.toList :=
    .of_all (by decide) (by decide) (by decide) (by decide)
  exact ⟨hkey, hlines, by decide +kernel, Value.ofDocument?_entry_lines_iff hkey hlines⟩

/-- Behind an empty first line the reader takes the space in front of the letter for a part of the
margin, with or without a line break at the end. -/
theorem Value.ofDocument?_entry_lines_ne :
    let text := "\n a"
    IsMultiLine text.toList ∧ entry 0 "v" text = "v: |-\n\n   a" ∧
      ∀ tail ∈ ["", "\n"],
        Value.ofDocument? (entry 0 "v" text ++ tail) =
            some (.mapping [(.string "v", .string "\na")]) ∧
          Value.ofDocument? (entry 0 "v" text ++ tail) ≠
            some (.mapping [(.string "v", .string text)]) := by
  intro text
  have hentry : entry 0 "v" text = "v: |-\n\n   a" := by decide +kernel
  refine ⟨.of_all (by decide) (by decide) (by decide) (by decide), hentry, fun tail htail => ?_⟩
  have hread : Value.ofDocument? (entry 0 "v" text ++ tail) =
      some (.mapping [(.string "v", .string "\na")]) := by
    rw [hentry]
    rcases List.mem_pair.mp htail with rfl | rfl
    · have htokens : Scanner.tokens? ("v".toList ++ ':' :: " |-\n\n   a".toList) =
          some (.blockMappingStart :: Scanner.keyTokens "v" ++
            ([.scalar .literal "\na"] ++ [YamlToken.blockEnd])) := by
        decide +kernel
      exact Value.ofDocument?_scalar (by decide) rfl (List.all_eq_true.mp (by decide)) htokens
    · have htokens : Scanner.tokens? ("v".toList ++ ':' :: " |-\n\n   a\n".toList) =
          some (.blockMappingStart :: Scanner.keyTokens "v" ++
            ([.scalar .literal "\na"] ++ [YamlToken.blockEnd])) := by
        decide +kernel
      exact Value.ofDocument?_scalar (by decide) rfl (List.all_eq_true.mp (by decide)) htokens
  refine ⟨hread, ?_⟩
  rw [hread]
  simp [text]

end AgentPipeline.Yaml
