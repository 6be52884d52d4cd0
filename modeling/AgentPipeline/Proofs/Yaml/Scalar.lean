import AgentPipeline.Yaml.Printer
import AgentPipeline.Proofs.Yaml.Scan
import Mathlib.Data.List.DropRight

/-!
# Scalars on one line

A text on one line, between single quotes with its own quotes doubled, is read as it is
(`exists_readQuoted`), and what it consists of does not matter. Without quotes it is read up to the
first place where a plain scalar ends: a hash behind white space or a colon in front of it
(`splitPlain`, `readPlain_plainText`). Behind a hash the line is a comment; at a colon the scanner
fails, since where a value stands no key may start.
-/

namespace AgentPipeline.Yaml

variable {c : Char} {cs done text : List Char} {gap : Gap} {p : Position} {least : Nat}

/-! ### White space on one line -/

namespace Gap

/-- A blank does not break the line. -/
theorem isBroken_addBlank (h : gap.isBroken = false) : (gap.addBlank c).isBroken = false := by
  cases gap with
  | breaks => cases h
  | _ => rfl

/-- The text of a gap grows by the blank. -/
theorem text_addBlank (h : gap.isBroken = false) : (gap.addBlank c).text = c :: gap.text := by
  cases gap with
  | breaks => cases h
  | _ => rfl

/-- A gap with a blank is not empty. -/
theorem isEmpty_addBlank : (gap.addBlank c).isEmpty = false := by
  cases gap <;> rfl

end Gap

/-- Spaces and tabs break no line. -/
theorem isBreak_of_isSpaceOrTab (h : isSpaceOrTab c = true) : isBreak c = false := by
  simp only [isSpaceOrTab, Bool.or_eq_true, beq_iff_eq] at h
  rcases h with rfl | rfl <;> decide

/-! ### Quoted scalars -/

/-- Quotes are doubled character by character. -/
theorem doubleSingleQuotes_cons (c : Char) (cs : List Char) :
    doubleSingleQuotes (c :: cs) =
      (if c = '\'' then ['\'', '\''] else [c]) ++ doubleSingleQuotes cs := rfl

section Quoted

variable {rest : List Char}

/-- Two quotes are read as one. -/
theorem readQuoted_quotes (hcolumn : p.column ≠ 0) :
    readQuoted true .none gap text p ('\'' :: '\'' :: rest) =
      readQuoted true .none .none ('\'' :: (gap.text ++ text)) ((p.next '\'').next '\'') rest := by
  simp [readQuoted, isBreak, isSpaceOrTab, hcolumn]

/-- A quote that is not doubled closes the scalar, with the white space in front of it. -/
theorem readQuoted_close (hcolumn : p.column ≠ 0) (hrest : rest.head? ≠ some '\'') :
    readQuoted true .none gap text p ('\'' :: rest) =
      some ⟨String.ofList (gap.text ++ text).reverse, false, p.next '\'', rest⟩ := by
  cases rest with
  | nil => simp [readQuoted, isBreak, isSpaceOrTab, hcolumn]
  | cons d rest =>
      rw [List.head?_cons, Ne, Option.some.injEq] at hrest
      simp [readQuoted, isBreak, isSpaceOrTab, hcolumn, hrest]

/-- White space is set aside until it is clear what follows. -/
theorem readQuoted_blank {single : Bool} (hc : isSpaceOrTab c = true) :
    readQuoted single .none gap text p (c :: rest) =
      readQuoted single .none (gap.addBlank c) text (p.next c) rest := by
  simp [readQuoted, isBreak_of_isSpaceOrTab hc, hc]

/-- Any other character is kept, behind the white space in front of it. -/
theorem readQuoted_kept (hbreak : isBreak c = false) (hblank : isSpaceOrTab c = false)
    (hquote : c ≠ '\'') (hcolumn : p.column ≠ 0) :
    readQuoted true .none gap text p (c :: rest) =
      readQuoted true .none .none (c :: (gap.text ++ text)) (p.next c) rest := by
  simp [readQuoted, hbreak, hblank, hquote, hcolumn]

/-- **Between single quotes** a text on one line is read as it is, once its own quotes are
doubled. -/
theorem exists_readQuoted (gap : Gap) (text : List Char) (p : Position)
    (hcs : ∀ c ∈ cs, isBreak c = false) (hgap : gap.isBroken = false) (hcolumn : p.column ≠ 0)
    (hrest : rest.head? ≠ some '\'') :
    ∃ p', readQuoted true .none gap text p (doubleSingleQuotes cs ++ '\'' :: rest) =
      some ⟨String.ofList (text.reverse ++ gap.text.reverse ++ cs), false, p', rest⟩ := by
  induction cs generalizing gap text p with
  | nil => exact ⟨_, by simpa [doubleSingleQuotes] using readQuoted_close hcolumn hrest⟩
  | cons c cs ih =>
      rw [List.forall_mem_cons] at hcs
      by_cases hquote : c = '\''
      · subst hquote
        obtain ⟨p', hp'⟩ := ih .none ('\'' :: (gap.text ++ text))
          ((p.next '\'').next '\'') hcs.2 rfl (Nat.succ_ne_zero _)
        have hquotes : doubleSingleQuotes ('\'' :: cs) ++ '\'' :: rest =
            '\'' :: '\'' :: (doubleSingleQuotes cs ++ '\'' :: rest) := rfl
        refine ⟨p', ?_⟩
        rw [hquotes, readQuoted_quotes hcolumn, hp']
        simp [Gap.text]
      have hkept : doubleSingleQuotes (c :: cs) ++ '\'' :: rest =
          c :: (doubleSingleQuotes cs ++ '\'' :: rest) := by
        simp [doubleSingleQuotes, hquote]
      rw [hkept]
      by_cases hblank : isSpaceOrTab c = true
      · obtain ⟨p', hp'⟩ := ih (gap.addBlank c) text (p.next c) hcs.2
          (Gap.isBroken_addBlank hgap) (Nat.succ_ne_zero _)
        refine ⟨p', ?_⟩
        rw [readQuoted_blank hblank, hp']
        simp [Gap.text_addBlank hgap]
      · obtain ⟨p', hp'⟩ := ih .none (c :: (gap.text ++ text)) (p.next c) hcs.2 rfl
          (Nat.succ_ne_zero _)
        refine ⟨p', ?_⟩
        rw [readQuoted_kept hcs.1 (by simpa using hblank) hquote hcolumn, hp']
        simp [Gap.text]

end Quoted

/-! ### Plain scalars -/

/-- What a plain scalar on one line is read from, white space behind it included, and what is left
of the line. The scalar ends in front of a hash that stands behind white space, and of a colon that
ends a word; `blank` holds if white space stands in front of the line. -/
def splitPlain (blank : Bool) : List Char → List Char × List Char
  | [] => ([], [])
  | c :: cs =>
    if (c = '#' ∧ blank = true) ∨ endsPlain false c cs.head? = true then ([], c :: cs)
    else (c :: (splitPlain (isSpaceOrTab c) cs).1, (splitPlain (isSpaceOrTab c) cs).2)

/-- Cutting a line loses nothing. -/
theorem splitPlain_append (blank : Bool) (cs : List Char) :
    (splitPlain blank cs).1 ++ (splitPlain blank cs).2 = cs := by
  induction cs generalizing blank with
  | nil => rfl
  | cons c cs ih =>
      rw [splitPlain]
      split
      · rfl
      · rw [List.cons_append, ih]

/-- What is left of the line starts with the character that ends the scalar. -/
theorem splitPlain_snd_eq_cons {blank : Bool} {rest : List Char}
    (h : (splitPlain blank cs).2 = c :: rest) :
    c = '#' ∨ (c = ':' ∧ endsWord rest.head? = true) := by
  induction cs generalizing blank with
  | nil => cases h
  | cons d cs ih =>
      rw [splitPlain] at h
      split at h
      · next hends =>
        obtain ⟨rfl, rfl⟩ := List.cons.inj h
        simpa [endsPlain] using hends.imp_left And.left
      · exact ih h

/-- The text of a plain scalar on one line. -/
def plainText (cs : List Char) : String :=
  String.ofList ((splitPlain false cs).1.rdropWhile isSpaceOrTab)

/-- **What the reader of plain scalars knows** on one line, when it has read some text: the white
space behind it is set aside. -/
structure HasRead (done text : List Char) (gap : Gap) : Prop where
  notBroken : gap.isBroken = false
  done_eq : done = text.reverse ++ gap.text.reverse
  text_eq : text.reverse = done.rdropWhile isSpaceOrTab

namespace HasRead

/-- At the start nothing has been read. -/
theorem nil : HasRead [] [] .none := ⟨rfl, rfl, rfl⟩

/-- White space goes into the gap. -/
theorem addBlank (h : HasRead done text gap) (hc : isSpaceOrTab c = true) :
    HasRead (done ++ [c]) text (gap.addBlank c) := by
  refine ⟨Gap.isBroken_addBlank h.notBroken, ?_, ?_⟩
  · rw [Gap.text_addBlank h.notBroken, List.reverse_cons, h.done_eq, List.append_assoc]
  · rw [List.rdropWhile_concat_pos _ _ _ hc, h.text_eq]

/-- Any other character takes the gap into the text. -/
theorem kept (h : HasRead done text gap) (hc : isSpaceOrTab c = false) :
    HasRead (done ++ [c]) (c :: (gap.text ++ text)) .none := by
  have heq : (c :: (gap.text ++ text)).reverse = done ++ [c] := by
    rw [h.done_eq, List.reverse_cons, List.reverse_append]
  refine ⟨rfl, ?_, ?_⟩
  · rw [heq]
    exact (List.append_nil _).symm
  · rw [heq, List.rdropWhile_concat_neg _ _ _ (by simp [hc])]

end HasRead

/-- White space on the line is set aside. -/
theorem readPlain_blank (hgap : gap.isBroken = false) (hc : isSpaceOrTab c = true) :
    readPlain false least gap text p (c :: cs) =
      readPlain false least (gap.addBlank c) text (p.next c) cs := by
  rw [readPlain, if_neg (by simp [isBreak_of_isSpaceOrTab hc]), if_pos hc,
    if_neg (by simp [hgap])]

/-- The reader of plain scalars goes on to the end of the scalar, by induction on the line. -/
theorem readPlain_of_hasRead (h : HasRead done text gap) (hcs : ∀ c ∈ cs, isBreak c = false)
    (hcolumn : p.column ≠ 0) :
    readPlain false least gap text p cs =
      some ⟨String.ofList ((done ++ (splitPlain (!gap.isEmpty) cs).1).rdropWhile isSpaceOrTab),
        false, p.skip (splitPlain (!gap.isEmpty) cs).1, (splitPlain (!gap.isEmpty) cs).2⟩ := by
  induction cs generalizing done text gap p with
  | nil =>
      rw [readPlain, h.notBroken, splitPlain, List.append_nil, ← h.text_eq]
      rfl
  | cons c cs ih =>
      rw [List.forall_mem_cons] at hcs
      have hcolumn' : (p.next c).column ≠ 0 := Nat.succ_ne_zero _
      cases hblank : isSpaceOrTab c with
      | true =>
          -- white space ends no plain scalar, since a hash counts only behind it
          have hgoes : ¬((c = '#' ∧ (!gap.isEmpty) = true) ∨
              endsPlain false c cs.head? = true) := by
            simp only [isSpaceOrTab, Bool.or_eq_true, beq_iff_eq] at hblank
            rcases hblank with rfl | rfl <;> simp [endsPlain]
          rw [readPlain_blank h.notBroken hblank, ih (h.addBlank hblank) hcs.2 hcolumn',
            splitPlain, if_neg hgoes, Gap.isEmpty_addBlank, hblank, List.append_assoc]
          rfl
      | false =>
          rw [splitPlain]
          split
          · next hends =>
            rw [readPlain_ends h.notBroken hcs.1 hblank hends, List.append_nil, ← h.text_eq]
            rfl
          · next hgoes =>
            rw [readPlain_kept h.notBroken hcs.1 hblank (fun hp => hcolumn hp.1) hgoes,
              ih (h.kept hblank) hcs.2 hcolumn', hblank, List.append_assoc]
            rfl

/-- **A plain scalar on one line** is what stands in front of its end, without the white space
behind it. -/
theorem readPlain_plainText (hcs : ∀ c ∈ cs, isBreak c = false) (hcolumn : p.column ≠ 0) :
    readPlain false least .none [] p cs =
      some ⟨plainText cs, false, p.skip (splitPlain false cs).1, (splitPlain false cs).2⟩ :=
  readPlain_of_hasRead .nil hcs hcolumn

/-! ### Where plain scalars end -/

/-- Between characters that may stand on a line, words end at spaces and tabs. -/
theorem endsWord_of_isAllowed (hallowed : isAllowed c = true) (hbreak : isBreak c = false) :
    endsWord (some c) = isSpaceOrTab c := by
  have hzero : c.toNat ≠ 0 := by
    intro h
    rw [show c = Char.ofNat 0 by rw [← h, Char.ofNat_toNat]] at hallowed
    exact absurd hallowed (by decide)
  simp [endsWord, isBlankOrBreak, isSpaceOrTab, hbreak, hzero]

section Neighbours

variable {f g : Char → Bool}

/-- A pair stands at the front of a text or further on. -/
theorem hasPair_cons : hasPair f g (c :: cs) = (cs.head?.any (f c && g ·) || hasPair f g cs) := by
  cases cs with
  | nil => rfl
  | cons d cs => rfl

/-- White space in front of something is a space or a tab in front of it. -/
theorem hasPair_blank_left :
    hasPair isSpaceOrTab g cs = (hasPair (· == ' ') g cs || hasPair (· == '\t') g cs) := by
  induction cs with
  | nil => rfl
  | cons c cs ih =>
      rw [hasPair_cons, hasPair_cons, hasPair_cons, ih]
      cases cs <;> grind [isSpaceOrTab]

/-- White space behind something is a space or a tab behind it. -/
theorem hasPair_blank_right :
    hasPair f isSpaceOrTab cs = (hasPair f (· == ' ') cs || hasPair f (· == '\t') cs) := by
  induction cs with
  | nil => rfl
  | cons c cs ih =>
      rw [hasPair_cons, hasPair_cons, hasPair_cons, ih]
      cases cs <;> grind [isSpaceOrTab]

end Neighbours

/-- **A line is one plain scalar** if there is no hash behind white space in it and no colon in
front of white space or of the end. -/
theorem splitPlain_snd_eq_nil_iff (blank : Bool)
    (hcs : ∀ c ∈ cs, isAllowed c = true ∧ isBreak c = false) :
    (splitPlain blank cs).2 = [] ↔ (blank = true → cs.head? ≠ some '#') ∧
      hasPair isSpaceOrTab (· == '#') cs = false ∧ hasPair (· == ':') isSpaceOrTab cs = false ∧
        cs.getLast? ≠ some ':' := by
  induction cs generalizing blank with
  | nil => simp [splitPlain, hasPair]
  | cons c cs ih =>
      rw [List.forall_mem_cons] at hcs
      -- behind the character a word ends at white space or at the end of the line
      have hword : endsWord cs.head? = cs.head?.all isSpaceOrTab := by
        cases cs with
        | nil => rfl
        | cons d cs =>
            obtain ⟨hd, -⟩ := List.forall_mem_cons.mp hcs.2
            exact endsWord_of_isAllowed hd.1 hd.2
      have hends : endsPlain false c cs.head? = true ↔
          c = ':' ∧ cs.head?.all isSpaceOrTab = true := by
        simp [endsPlain, hword]
      have hrest := ih (isSpaceOrTab c) hcs.2
      rw [splitPlain, hasPair_cons, hasPair_cons]
      split
      · -- the line ends at this character, so one of the tests finds it
        next hstop =>
        rw [hends] at hstop
        cases cs <;> grind
      · next hgoes =>
        rw [hends] at hgoes
        rw [hrest]
        cases cs <;> grind

/-! ### Scanning -/

namespace Scanner

variable {rest : List Char} {tokens : List YamlToken} {ts : Option (List YamlToken)}
  {column : Nat} {outer : List Nat} {l : Lexeme}

/-- No block is closed while the column is not left of it. -/
theorem closeDeeper_block (hcolumn : column ≤ p.column) :
    (block rest p tokens (column :: outer) false).closeDeeper =
      block rest p tokens (column :: outer) false :=
  closeDeeper_eq (by rintro _ ⟨⟩; exact hcolumn)

/-- A scalar between quotes, where no key may start. -/
theorem yields_quoted (single : Bool) (hc : c = if single then '\'' else '"')
    (hcolumn : column ≤ p.column)
    (hread : readQuoted single .none .none [] (p.next c) cs = some l)
    (hle : l.rest.length ≤ cs.length)
    (h : (block l.rest l.position
      (tokens ++ [YamlToken.scalar (if single then .single else .double) l.text])
      (column :: outer) false).Yields ts) :
    (block (c :: cs) p tokens (column :: outer) false).Yields ts := by
  have hvisible : isVisible c = true := by
    rw [hc]
    cases single <;> decide
  have hfetch : (block (c :: cs) p tokens (column :: outer) false).fetch c cs =
      some (block l.rest l.position
        (tokens ++ [YamlToken.scalar (if single then .single else .double) l.text])
        (column :: outer) false) := by
    have hquoted : (block (c :: cs) p tokens (column :: outer) false).fetch c cs =
        (block (c :: cs) p tokens (column :: outer) false).fetchQuoted single := by
      rw [hc]
      cases single <;> simp [fetch, isDocumentMark]
    rw [hquoted]
    change (readQuoted single .none .none [] (p.next c) cs).bind _ = _
    rw [hread]
    simp [block, pushScalar, push, skip]
  exact .of_isVisible rfl hvisible rfl (closeDeeper_block hcolumn) hfetch hle h

/-- In front of a plain scalar there is no gap, if it does not stand at the start of a line. -/
theorem passGap_of_notBlank {columns : List Nat} {allowed : Bool} (hcomment : c ≠ '#')
    (hblank : isBlankOrBreak c = false) (hstart : p.column ≠ 0) :
    (block (c :: cs) p tokens columns allowed).passGap =
      block (c :: cs) p tokens columns allowed := by
  simp only [isBlankOrBreak, Bool.or_eq_false_iff, beq_eq_false_iff_ne] at hblank
  simp [passGap, block, passFrom, hblank, hcomment, hstart]

/-- A plain scalar, where no key may start and not at the start of a line. -/
theorem yields_plain (hcomment : c ≠ '#') (hblank : isBlankOrBreak c = false)
    (hstart : p.column ≠ 0) (hcolumn : column ≤ p.column)
    (hplain : (block (c :: cs) p tokens (column :: outer) false).fetch c cs =
      (block (c :: cs) p tokens (column :: outer) false).fetchPlain)
    (hread : readPlain false (column + 1) .none [] p (c :: cs) = some l)
    (hle : l.rest.length ≤ cs.length)
    (h : (block l.rest l.position (tokens ++ [YamlToken.scalar .plain l.text]) (column :: outer)
      l.brokeLine).Yields ts) :
    (block (c :: cs) p tokens (column :: outer) false).Yields ts := by
  have hfetch : (block (c :: cs) p tokens (column :: outer) false).fetch c cs =
      some (block l.rest l.position (tokens ++ [YamlToken.scalar .plain l.text]) (column :: outer)
        l.brokeLine) := by
    rw [hplain]
    change (readPlain false (column + 1) .none [] p (c :: cs)).bind _ = _
    rw [hread]
    simp [block, pushScalar, push]
  exact .of_noGap (passGap_of_notBlank hcomment hblank hstart) rfl rfl (closeDeeper_block hcolumn)
    hfetch hle h

/-- The rest of a line behind a hash is passed over. -/
theorem yields_comment {allowed : Bool} {columns : List Nat}
    (hcs : ∀ c ∈ cs, isBreak c = false)
    (h : ∀ p : Position, (block [] p tokens columns allowed).Yields ts) :
    (block ('#' :: cs) p tokens columns allowed).Yields ts := by
  have hpass (p : Position) : passFrom false allowed true p cs = (allowed, p.skip cs, []) := by
    induction cs generalizing p with
    | nil => rfl
    | cons c cs ih =>
        rw [List.forall_mem_cons] at hcs
        rw [passFrom, if_neg (by simp [hcs.1]), if_pos rfl, ih hcs.2]
        rfl
  have hgap : (block ('#' :: cs) p tokens columns allowed).passGap =
      (block [] ((p.next '#').skip cs) tokens columns allowed).passGap := by
    simp [passGap, block, inFlow, passFrom, isBreak, isByteOrderMark, hpass]
  exact .of_passGap hgap (Nat.zero_le _) (h _)

/-- A colon that ends a word is an error where no key may start and none has started. -/
theorem yields_colon (hends : endsWord rest.head? = true) (hcolumn : column ≤ p.column) :
    (block (':' :: rest) p tokens (column :: outer) false).Yields none := by
  refine .of_fetch_eq_none rfl (by decide) rfl (closeDeeper_block hcolumn) ?_
  simp [fetch, isDocumentMark, hends, fetchValue, block, inFlow]

/-! ### Documents -/

variable {key : String}

/-- The tokens of a mapping of a word to a text between single quotes. -/
theorem tokens?_quoted (hkey : isWord key.toList = true) (hlength : key.length ≤ 1024)
    (hcs : ∀ c ∈ cs, isBreak c = false) :
    tokens? (key.toList ++ ':' :: ' ' :: '\'' :: (doubleSingleQuotes cs ++ ['\''])) =
      some (.blockMappingStart :: keyTokens key ++
        ([.scalar .single (String.ofList cs)] ++ [YamlToken.blockEnd])) := by
  refine tokens?_of_yields hkey hlength rfl fun p => ?_
  have hcolumn : ((p.next ' ').next '\'').column ≠ 0 := Nat.succ_ne_zero _
  have hend : ([] : List Char).head? ≠ some '\'' := by simp
  obtain ⟨p', hread⟩ := exists_readQuoted .none [] _ hcs rfl hcolumn hend
  refine yields_space (yields_quoted true rfl (Nat.zero_le _) hread (Nat.zero_le _) ?_)
  rw [← List.append_assoc]
  exact yields_end

/-- A text that starts like a plain scalar. -/
def StartsPlain (cs : List Char) : Prop :=
  ∃ c rest, cs = c :: rest ∧ (∀ d ∈ indicators, c ≠ d) ∧ isBlankOrBreak c = false

/-- **The tokens of a mapping of a word to a plain scalar.** What is left of the line behind the
scalar is a comment, or an error if it starts with a colon. -/
theorem tokens?_plain (hkey : isWord key.toList = true) (hlength : key.length ≤ 1024)
    (hstarts : StartsPlain cs) (hcs : ∀ c ∈ cs, isBreak c = false) :
    tokens? (key.toList ++ ':' :: ' ' :: cs) =
      if (splitPlain false cs).2.head? = some ':' then none
      else some (.blockMappingStart :: keyTokens key ++
        ([.scalar .plain (plainText cs)] ++ [YamlToken.blockEnd])) := by
  obtain ⟨c, rest, rfl, hother, hblank⟩ := hstarts
  have hle : (splitPlain false (c :: rest)).2.length ≤ rest.length := by
    have hlengths := congrArg List.length (splitPlain_append (isSpaceOrTab c) rest)
    rw [List.length_append] at hlengths
    rw [splitPlain, if_neg (by simp [endsPlain, hother ':' (by decide)])]
    change (splitPlain (isSpaceOrTab c) rest).2.length ≤ rest.length
    omega
  refine tokens?_of_yields hkey hlength rfl fun p => ?_
  have hcolumn : (p.next ' ').column ≠ 0 := Nat.succ_ne_zero _
  refine yields_space (yields_plain (hother '#' (by decide)) hblank hcolumn (Nat.zero_le _)
    (fetch_of_notIndicator hother hblank fun hmark => hcolumn hmark.1)
    (readPlain_plainText hcs hcolumn) hle ?_)
  rw [← List.append_assoc]
  cases hsplit : (splitPlain false (c :: rest)).2 with
  | nil => exact yields_end
  | cons d behind =>
      rcases splitPlain_snd_eq_cons hsplit with rfl | ⟨rfl, hends⟩
      · have hcomment : ∀ c ∈ behind, isBreak c = false := by
          intro d hd
          refine hcs d ?_
          rw [← splitPlain_append false (c :: rest), hsplit]
          exact List.mem_append_right _ (List.mem_cons_of_mem _ hd)
        rw [if_neg (by simp)]
        exact yields_comment hcomment fun _ => yields_end
      · rw [List.head?_cons, if_pos rfl]
        exact yields_colon hends (Nat.zero_le _)

end Scanner

end AgentPipeline.Yaml
