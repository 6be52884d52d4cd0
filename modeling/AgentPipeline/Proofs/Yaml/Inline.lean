import AgentPipeline.Proofs.Yaml.Item

/-!
# Scalars behind their keys

Whatever can be written plain is read as it is up to the end of its line (`exists_readPlain`), and
so is a quoted scalar up to its closing quote. A scalar on one line is hence read in the same way
behind a key at any column (`Scanner.ScansAs`, `exists_scansAs_stringText`).

A literal block has more lines, and these have columns of their own. With its lines two columns from
the left it is read as its text just behind keys that stand far enough to the left
(`IsLiteral.ofDocument?_iff`); behind any other key less is read, since the reader looks for the
lines further to the right.
-/

namespace AgentPipeline.Yaml

variable {c : Char} {cs done text : List Char} {gap : Gap} {p : Position}

/-! ### Plain scalars -/

/-- A line feed ends a word just like the end of the text. -/
theorem endsWord_append_break (cs : List Char) :
    endsWord (cs ++ ['\n']).head? = endsWord cs.head? := by
  cases cs <;> rfl

/-- What the first character of a plain scalar is not. -/
theorem of_startsBlock (h : startsBlock (c :: cs) = false) : isIndicator c = false ∧
    (c = '?' ∨ c = ':' ∨ c = '-' → endsWord cs.head? = false) := by
  unfold startsBlock at h
  split at h
  · cases h
  · cases h
  · next heq =>
    obtain ⟨rfl, rfl⟩ := List.cons.inj heq
    rw [Bool.or_eq_false_iff, Bool.and_eq_false_iff] at h
    refine ⟨h.1, fun hc => h.2.resolve_left ?_⟩
    rcases hc with rfl | rfl | rfl <;> decide
  · next heq => cases heq

/-- The reader of plain scalars goes on to the end of the line, by induction on the line. -/
theorem exists_readPlain_of_hasRead (least : Nat) {previous : Char} (h : HasRead done text gap)
    (hcs : ∀ c ∈ cs, isBreak c = false) (hearly : endsEarly previous cs = false)
    (hprevious : gap.isEmpty = false → isBlankOrBreak previous = true) (hcolumn : p.column ≠ 0) :
    ∃ p', readPlain false least gap text p (cs ++ ['\n']) =
      some ⟨String.ofList ((done ++ cs).rdropWhile isSpaceOrTab), true, p', []⟩ := by
  induction cs generalizing done text gap p previous with
  | nil =>
      refine ⟨p.nextLine '\n', ?_⟩
      -- the line break ends the scalar, and what was set aside is dropped
      have hbroken : (gap.addBreak '\n').isBroken = true := by cases gap <;> rfl
      rw [List.nil_append, readPlain, if_pos (by decide), readPlain, hbroken, List.append_nil,
        ← h.text_eq]
  | cons c cs ih =>
      rw [List.forall_mem_cons] at hcs
      rw [endsEarly, Bool.or_eq_false_iff, Bool.or_eq_false_iff] at hearly
      obtain ⟨⟨hcolon, hhash⟩, hearly⟩ := hearly
      have hcolumn' : (p.next c).column ≠ 0 := Nat.succ_ne_zero _
      rw [List.append_cons done]
      cases hblank : isSpaceOrTab c with
      | true =>
          obtain ⟨p', hread⟩ := ih (h.addBlank hblank) hcs.2 hearly
            (fun _ => Bool.or_eq_true_iff.mpr (.inl hblank)) hcolumn'
          refine ⟨p', ?_⟩
          rw [← hread]
          exact readPlain_blank h.notBroken hblank
      | false =>
          -- neither a hash behind white space nor a colon at the end of a word is found here
          have hgoes : ¬((c = '#' ∧ (!gap.isEmpty) = true) ∨
              endsPlain false c (cs ++ ['\n']).head? = true) := by
            rw [endsPlain, endsWord_append_break, hcolon]
            rintro (⟨rfl, hgap⟩ | hends)
            · rw [hprevious (by simpa using hgap)] at hhash
              cases hhash
            · cases hends
          obtain ⟨p', hread⟩ := ih (h.kept hblank) hcs.2 hearly
            (fun h => absurd h (by decide)) hcolumn'
          refine ⟨p', ?_⟩
          rw [← hread]
          exact readPlain_kept h.notBroken hcs.1 hblank (fun hp => hcolumn hp.1) hgoes

/-- A character that is no indicator differs from one that is. -/
theorem ne_of_isIndicator {d : Char} (h : isIndicator c = false) (hd : isIndicator d = true) :
    c ≠ d := by
  rintro rfl
  exact Bool.false_ne_true (h.symm.trans hd)

/-- A printable character that is no space and breaks no line is not blank. -/
theorem isBlankOrBreak_of_isPrintable (hprintable : isPrintable c = true)
    (hbreak : isBreak c = false) (hspace : c ≠ ' ') : isBlankOrBreak c = false := by
  have htab : c ≠ '\t' := by
    rintro rfl
    exact absurd hprintable (by decide)
  simp [isBlankOrBreak, hspace, htab, hbreak]

/-- **A text that can be written plain** is read as it is, up to the end of its line. -/
theorem exists_readPlain (least : Nat) (h : allowsPlain cs = true) (hcolumn : p.column ≠ 0) :
    ∃ p', readPlain false least .none [] p (cs ++ ['\n']) =
      some ⟨String.ofList cs, true, p', []⟩ := by
  cases cs with
  | nil => exact ⟨_, rfl⟩
  | cons c cs =>
      obtain ⟨-, hlast, hline, hstarts, hearly⟩ := allowsPlain_cons.mp h
      obtain ⟨hindicator, hword⟩ := of_startsBlock hstarts
      -- the first character is no indicator, unless a word goes on behind it
      have hearly' : endsEarly c (c :: cs) = false := by
        have hcomment : c ≠ '#' := ne_of_isIndicator hindicator (by decide)
        have hcolon : (c == ':' && endsWord cs.head?) = false := by
          by_cases hc : c = ':'
          · rw [hword (.inr (.inl hc)), Bool.and_false]
          · simp [hc]
        rw [endsEarly, hcolon, hearly]
        simp [hcomment]
      obtain ⟨p', hread⟩ := exists_readPlain_of_hasRead least .nil
        (isBreak_of_allowsPlain h) hearly' (fun h => absurd h (by decide)) hcolumn
      have hend : (c :: cs).rdropWhile isSpaceOrTab = c :: cs := by
        rw [List.rdropWhile_eq_self_iff]
        intro hne hblank
        have hmem := List.getLast_mem hne
        have hprintable := (hline _ hmem).1
        have hspace : (c :: cs).getLast hne ≠ ' ' := fun heq =>
          hlast (heq ▸ List.getLast?_eq_some_getLast hne)
        have hnot := isBlankOrBreak_of_isPrintable hprintable (hline _ hmem).2 hspace
        rw [isBlankOrBreak, Bool.or_eq_false_iff] at hnot
        exact Bool.false_ne_true (hnot.1.symm.trans hblank)
      refine ⟨p', ?_⟩
      rw [hread, List.nil_append, hend]

namespace Scanner

/-- A dash, a question mark and a colon start plain scalars as well, if they end no word. -/
theorem fetch_of_endsWord {s : Scanner} {rest : List Char} (hc : c = '?' ∨ c = ':' ∨ c = '-')
    (hword : endsWord rest.head? = false) (hflow : s.inFlow = false)
    (hcolumn : s.position.column ≠ 0) : s.fetch c rest = s.fetchPlain := by
  have hblank : rest.head?.any isSpaceOrTab = false := by
    cases rest with
    | nil => cases hword
    | cons d rest =>
        simp only [endsWord, isBlankOrBreak, List.head?_cons, Bool.or_eq_false_iff] at hword
        simp [isSpaceOrTab, hword]
  rcases hc with rfl | rfl | rfl <;>
    simp [fetch, startsPlain, hword, hflow, hcolumn, hblank]

/-- What can be written plain is read as a plain scalar, where no mark between documents stands. -/
theorem fetch_of_allowsPlain {s : Scanner} (h : allowsPlain (c :: cs) = true)
    (hflow : s.inFlow = false) (hcolumn : s.position.column ≠ 0) :
    s.fetch c (cs ++ ['\n']) = s.fetchPlain := by
  obtain ⟨hspace, -, hline, hstarts, -⟩ := allowsPlain_cons.mp h
  obtain ⟨hindicator, hword⟩ := of_startsBlock hstarts
  obtain ⟨hprintable, hbreak⟩ := hline c List.mem_cons_self
  by_cases hc : c = '?' ∨ c = ':' ∨ c = '-'
  · exact fetch_of_endsWord hc ((endsWord_append_break cs).trans (hword hc)) hflow hcolumn
  · have hother : ∀ d ∈ indicators, c ≠ d := by
      have hindicators : indicators.all (fun d =>
          d == '?' || d == ':' || d == '-' || isIndicator d) = true := by decide
      rintro d hd rfl
      refine hc ?_
      simpa [hindicator, or_assoc] using List.all_eq_true.mp hindicators c hd
    exact fetch_of_notIndicator hother (isBlankOrBreak_of_isPrintable hprintable hbreak hspace)
      fun hmark => hcolumn hmark.1

/-! ### Tokens -/

variable {style : Style} {w key : String} {tokens : List YamlToken} {column : Nat}

/-- **A text that is scanned as a scalar** behind a key, wherever the key stands. -/
def ScansAs (style : Style) (w : String) (cs : List Char) : Prop :=
  ∀ (p : Position) (tokens : List YamlToken) (column : Nat), column < p.column →
    (block (cs ++ ['\n']) p tokens [column] false).Yields
      (some (tokens ++ [.scalar style w] ++ [.blockEnd]))

/-- What may be written plain is scanned as itself. -/
theorem scansAs_plain (h : allowsPlain cs = true) (hne : cs ≠ []) :
    ScansAs .plain (String.ofList cs) cs := by
  intro p tokens column hcolumn
  have hstart : p.column ≠ 0 := Nat.ne_zero_of_lt hcolumn
  obtain ⟨p', hread⟩ := exists_readPlain (column + 1) h hstart
  obtain ⟨c, cs, rfl⟩ := List.exists_cons_of_ne_nil hne
  obtain ⟨hspace, -, hline, hstarts, -⟩ := allowsPlain_cons.mp h
  obtain ⟨hprintable, hbreak⟩ := hline c List.mem_cons_self
  exact yields_plain (ne_of_isIndicator (of_startsBlock hstarts).1 (by decide))
    (isBlankOrBreak_of_isPrintable hprintable hbreak hspace) hstart (Nat.le_of_lt hcolumn)
    (fetch_of_allowsPlain h rfl hstart) hread (Nat.zero_le _) yields_end

/-- Behind a quoted scalar the line ends. -/
theorem scansAs_quoted (single : Bool) {quote : Char}
    (hquote : quote = if single then '\'' else '"')
    (hread : ∀ p : Position, p.column ≠ 0 → ∃ p',
      readQuoted single .none .none [] p (cs ++ quote :: ['\n']) = some ⟨w, false, p', ['\n']⟩) :
    ScansAs (if single then .single else .double) w (quote :: (cs ++ [quote])) := by
  intro p tokens column hcolumn
  obtain ⟨p', hread⟩ := hread (p.next quote) (Nat.succ_ne_zero _)
  have htext : quote :: (cs ++ [quote]) ++ ['\n'] = quote :: (cs ++ quote :: ['\n']) := by simp
  rw [htext]
  exact yields_quoted single hquote (Nat.le_of_lt hcolumn) hread (by simp) (yields_break yields_end)

/-- A line between single quotes is scanned as itself. -/
theorem scansAs_single (hcs : ∀ c ∈ cs, isBreak c = false) :
    ScansAs .single (String.ofList cs) ('\'' :: (doubleSingleQuotes cs ++ ['\''])) :=
  scansAs_quoted true rfl fun p hcolumn =>
    exists_readQuoted .none [] p hcs rfl hcolumn (by decide)

/-- A text between double quotes is scanned as itself. -/
theorem scansAs_double (cs : List Char) :
    ScansAs .double (String.ofList cs) ('"' :: (cs.flatMap doubleQuotedChar ++ ['"'])) :=
  scansAs_quoted false rfl fun _ hcolumn =>
    exists_readQuoted_double cs [] ['\n'] rfl hcolumn

/-- The tokens of a key with a scalar behind it. -/
theorem ScansAs.tokens?_eq (h : ScansAs style w cs) (hkey : isWord key.toList = true)
    (hlength : key.length ≤ 1024) (column : Nat) :
    tokens? (spaces column ++ (key.toList ++ ':' :: ' ' :: (cs ++ ['\n']))) =
      some (.blockMappingStart :: keyTokens key ++
        ([.scalar style w] ++ [YamlToken.blockEnd])) := by
  obtain ⟨p, hcolumn, hp⟩ := exists_tokens?_key column (' ' :: (cs ++ ['\n'])) hkey hlength rfl
  have hscalar := h (p.next ' ') (.blockMappingStart :: keyTokens key) column
    (Nat.lt_succ_of_lt hcolumn)
  rw [List.append_assoc] at hscalar
  exact hp _ (yields_space hscalar)

/-- The tokens of a sequence with a plain scalar, which may still turn out to be a key when it has
been read. -/
theorem eq_of_tokens?_item {ts : List YamlToken} (h : allowsPlain cs = true) (hne : cs ≠ [])
    (htokens : tokens? ('-' :: ' ' :: (cs ++ ['\n'])) = some ts) :
    ts = [.blockSequenceStart, .blockEntry, .scalar .plain (String.ofList cs), .blockEnd] := by
  obtain ⟨p, hcolumn, hitem⟩ := exists_tokens?_item 0 (cs ++ ['\n'])
  have hstart : p.column ≠ 0 := by omega
  obtain ⟨p', hread⟩ := exists_readPlain 1 h hstart
  obtain ⟨c, cs, rfl⟩ := List.exists_cons_of_ne_nil hne
  obtain ⟨hspace, -, hline, hstarts, -⟩ := allowsPlain_cons.mp h
  obtain ⟨hprintable, hbreak⟩ := hline c List.mem_cons_self
  let s := block (c :: (cs ++ ['\n'])) p [.blockSequenceStart, .blockEntry] [0] true
  let s' : Scanner := { block [] p' [.blockSequenceStart, .blockEntry,
    .scalar .plain (String.ofList (c :: cs))] [0] true with
      candidate := some ⟨2, p, false⟩ }
  have hpass : s.passGap = s :=
    passGap_of_notBlank (ne_of_isIndicator (of_startsBlock hstarts).1 (by decide))
      (isBlankOrBreak_of_isPrintable hprintable hbreak hspace) hstart
  have hfetch : s.fetch c (cs ++ ['\n']) = some s' := by
    rw [fetch_of_allowsPlain h rfl hstart]
    change (readPlain false 1 .none [] p (c :: cs ++ ['\n'])).bind _ = _
    rw [hread]
    simp [s, s', block, pushScalar, push, hcolumn]
  have hdeeper : s.closeDeeper = s := closeDeeper_eq (by rintro _ ⟨⟩; exact Nat.zero_le _)
  obtain ⟨result, hresult⟩ := exists_yields s'
  have hyields := hitem result (.of_noGap hpass rfl rfl hdeeper hfetch (Nat.zero_le _) hresult)
  obtain rfl : result = some ts := hyields.symm.trans htokens
  exact eq_closed_of_run rfl rfl (hresult _ (Nat.lt_succ_self _))

end Scanner

/-! ### Documents -/

section Documents

variable {style : Style} {w key doc s : String} {v : Value} {column : Nat}

/-- **A scalar behind a key** is what its spelling denotes. -/
theorem Value.ofDocument?_of_scansAs (hkey : isStringWord key = true)
    (h : Scanner.ScansAs style w cs) (hkept : ∀ c ∈ doc.toList, isKept c = true)
    (hspelled : Reader.spelled style w = some v)
    (hdoc : doc.toList = spaces column ++ (key.toList ++ ':' :: ' ' :: (cs ++ ['\n']))) :
    Value.ofDocument? doc = some (.mapping [(.string key, v)]) := by
  obtain ⟨hword, hlength, -⟩ := isStringWord_iff.mp hkey
  exact Value.ofDocument?_key hkey hkept (hdoc ▸ h.tokens?_eq hword hlength column)
    (NodeReader.reads_scalar style w) (denotes_scalar hspelled 127)

/-- What the only item of a sequence is spelled like. -/
theorem spelled_of_item (hallows : allowsPlain w.toList = true) (hne : w.toList ≠ [])
    (hkept : ∀ c ∈ doc.toList, isKept c = true)
    (hdoc : doc.toList = '-' :: ' ' :: (w.toList ++ ['\n']))
    (h : Value.ofDocument? doc = some (.sequence [v])) : Reader.spelled .plain w = some v := by
  rw [Value.ofDocument?, parse?_eq_bind hkept] at h
  cases htokens : Scanner.tokens? doc.toList with
  | none =>
      rw [htokens] at h
      cases h
  | some ts =>
      rw [htokens, Option.bind_some] at h
      obtain rfl := Scanner.eq_of_tokens?_item hallows hne (hdoc ▸ htokens)
      rw [String.ofList_toList] at h
      have hroot : Stream.root? [.blockSequenceStart, .blockEntry, .scalar .plain w, .blockEnd] =
          some (some (.sequence .none [.scalar .none .plain w])) := rfl
      rw [hroot] at h
      obtain ⟨⟨x, left⟩, hread, hx⟩ := Option.map_eq_some_iff.mp h
      obtain rfl : x = .sequence [v] := hx
      obtain ⟨n, hn, hread⟩ := exists_item_of_value hread
      obtain ⟨rfl, -⟩ := List.cons.inj hn
      rw [run_value_scalar] at hread
      obtain ⟨w, hspelled, hw⟩ := Option.map_eq_some_iff.mp hread
      obtain ⟨rfl, -⟩ := Prod.mk.inj hw
      exact hspelled

/-! ### Strings -/

/-- Indenting a text keeps its characters. -/
theorem subset_indentLines {cs : List Char} {k : Nat} {fresh : Bool} :
    cs ⊆ indentLines k fresh cs := by
  induction cs generalizing fresh with
  | nil => exact List.Subset.refl _
  | cons c cs ih =>
      rw [indentLines]
      split
      · exact List.cons_subset_cons _ ih
      · exact List.subset_append_of_subset_right _ (List.cons_subset_cons _ ih)

/-- **A string on one line** is scanned as it is, in whatever style it is written. -/
theorem exists_scansAs_stringText (n : Nat) (hstyle : styleOf s ≠ .literal)
    (hbreaks : ∀ c ∈ stringText n s, isBreak c = true → c = '\n') :
    (∀ c ∈ stringText n s, isBreak c = false) ∧
      ∃ style, Scanner.ScansAs style s (stringText n s) ∧
        Reader.spelled style s = some (.string s) := by
  have hstyled := styled s
  unfold stringText at hbreaks ⊢
  dsimp only at hbreaks ⊢
  generalize styleOf s = style at hstyled hstyle hbreaks ⊢
  cases hstyled with
  | literal => exact absurd rfl hstyle
  | plain _ htext hallows =>
      -- an empty text is never written plain
      have hne : s.toList ≠ [] := by
        intro hnil
        rw [String.toList_eq_nil_iff.mp hnil] at htext
        exact absurd htext (by decide)
      have hscans := Scanner.scansAs_plain hallows hne
      have hvalue : Plain.toValue? s = some (.string s) := by rw [Plain.toValue?, htext]
      rw [String.ofList_toList] at hscans
      exact ⟨isBreak_of_allowsPlain hallows, .plain, hscans, hvalue⟩
  | single hline hallows =>
      dsimp only at hbreaks ⊢
      -- a break in the text would be written, and there is no line feed in the text
      have hs : ∀ c ∈ s.toList, isBreak c = false := by
        intro c hc
        by_contra hbreak
        rw [Bool.not_eq_false] at hbreak
        have hquotes : c ∈ doubleSingleQuotes s.toList :=
          List.mem_flatMap.mpr ⟨c, hc, by split <;> simp_all⟩
        have hnewline := hbreaks c (List.mem_cons_of_mem _ (List.mem_append_left _
          (List.mem_append_left _ (subset_indentLines hquotes)))) hbreak
        exact hline (hnewline ▸ hc)
      have hquotes := isBreak_of_mem_doubleSingleQuotes hs
      have hlast : s.toList.getLast?.any isBreak = false := by
        rw [Option.any_eq_false]
        exact fun c hc => by simp [hs c (List.mem_of_getLast? hc)]
      have hscans := Scanner.scansAs_single hs
      rw [hlast, indentLines_eq_self hquotes, if_neg Bool.false_ne_true, List.append_nil]
      rw [String.ofList_toList] at hscans
      refine ⟨?_, .single, hscans, rfl⟩
      simp only [List.forall_mem_cons, List.forall_mem_append]
      exact ⟨by decide, hquotes, by decide, List.forall_mem_nil _⟩
  | double =>
      have hscans := Scanner.scansAs_double s.toList
      rw [String.ofList_toList] at hscans
      refine ⟨?_, .double, hscans, rfl⟩
      simp only [List.forall_mem_cons, List.forall_mem_append]
      exact ⟨by decide, isBreak_of_mem_escaped _, by decide, List.forall_mem_nil _⟩

/-! ### Literal blocks -/

/-- A literal block is its header and its lines two columns from the left. -/
theorem stringText_literal (n : Nat) (h : styleOf s = .literal) :
    stringText n s = literalHeader s.toList ++ '\n' :: indentLines n true s.toList := by
  unfold stringText
  rw [h]

/-- Whether a text starts with a space or an empty line, so that its first line does not show where
the lines of its block stand. -/
def startsBlank (cs : List Char) : Bool :=
  cs.head?.any fun c => c == ' ' || isBreak c

/-- What the header of the block of a text says, of which `tail` is the end that is kept. -/
def literalMarks (body tail : List Char) : List Char :=
  (if startsBlank body then ['2'] else []) ++ if tail = [] then ['-'] else []

/-- **The parts of a literal block**: the lines, the last of which is not empty, and the line feed
that ends them, if it belongs to the text. -/
structure IsLiteral (body tail : List Char) : Prop where
  printable : ∀ c ∈ body, isPrintable c = true
  breaks : ∀ c ∈ body, isBreak c = true → c = '\n'
  last : ∃ front c, body = front ++ [c] ∧ isBreak c = false
  tail : tail = [] ∨ tail = ['\n']

namespace IsLiteral

variable {body tail : List Char}

/-- The header is a bar with the marks. -/
theorem literalHeader_eq (h : IsLiteral body tail) :
    literalHeader (body ++ tail) = '|' :: literalMarks body tail := by
  obtain ⟨front, d, rfl, hd⟩ := h.last
  have hfeed : isBreak '\n' = true := by decide
  -- the marks depend on the first and on the last two characters
  cases front with
  | nil =>
      rcases h.tail with rfl | rfl <;> simp [literalHeader, literalMarks, startsBlank, hd, hfeed]
  | cons c front =>
      rcases h.tail with rfl | rfl
      · have hback : front.reverse ++ [c] ≠ [] := by simp
        obtain ⟨e, back, hback⟩ := List.exists_cons_of_ne_nil hback
        simp [literalHeader, literalMarks, startsBlank, hback, hd]
      · simp [literalHeader, literalMarks, startsBlank, hd, hfeed]

/-- The marks break no line. -/
theorem isBreak_of_mem_literalMarks : ∀ c ∈ literalMarks body tail, isBreak c = false := by
  unfold literalMarks
  split <;> split <;> simp [isBreak]

/-- The marks are read as the chomping and the margin that they were written for. -/
theorem readBlockHeader_literalMarks (body tail : List Char) :
    Scanner.readBlockHeader (literalMarks body tail) = some (if tail = [] then .strip else .clip,
      if startsBlank body then some 2 else none) := by
  unfold literalMarks
  split <;> split <;> rfl

/-- A first line without white space in front shows the column. -/
theorem showsColumn (h : IsLiteral body tail) (hstart : startsBlank body = false) :
    ShowsColumn body := by
  obtain ⟨front, d, rfl, hd⟩ := h.last
  obtain ⟨c, cs, hcs⟩ : ∃ c cs, front ++ [d] = c :: cs := by cases front <;> simp
  rw [hcs] at hstart h ⊢
  simp only [startsBlank, List.head?_cons, Option.any_some, Bool.or_eq_false_iff,
    beq_eq_false_iff_ne] at hstart
  have hblank := isBlankOrBreak_of_isPrintable (h.printable c List.mem_cons_self) hstart.2 hstart.1
  rw [isBlankOrBreak, Bool.or_eq_false_iff] at hblank
  rw [ShowsColumn, List.dropWhile_cons_of_neg (by simp [hstart.2])]
  rintro _ ⟨⟩
  exact hblank.1

/-- The characters of the lines are kept. -/
theorem isKept_of_mem (h : IsLiteral body tail) : ∀ c ∈ body, isKept c = true :=
  fun c hc => isKept_of_isPrintable (h.printable c hc)

/-- The end of the text does not show in its first line. -/
theorem startsBlank_append (h : IsLiteral body tail) :
    startsBlank (body ++ tail) = startsBlank body := by
  obtain ⟨front, d, rfl, -⟩ := h.last
  cases front <;> rfl

/-- Behind a key in the first column, or in the second one if the first line of the text shows where
the lines stand, the block is read as its text. -/
theorem ofDocument?_of_column_le (h : IsLiteral body tail) (hkey : isStringWord key = true)
    (hkept : ∀ c ∈ doc.toList, isKept c = true)
    (hdoc : doc.toList = spaces column ++ (key.toList ++ ':' :: ' ' :: '|' ::
      (literalMarks body tail ++ '\n' :: (indentLines 2 true body ++ ['\n']))))
    (hcolumn : column = 0 ∨ (column = 1 ∧ startsBlank body = false)) :
    Value.ofDocument? doc =
      some (.mapping [(.string key, .string (String.ofList (body ++ tail)))]) := by
  obtain ⟨hword, hlength, -⟩ := isStringWord_iff.mp hkey
  obtain ⟨front, d, hbody, hd⟩ := h.last
  have hne : body ≠ [] := by simp [hbody]
  have hlast : body.getLast? ≠ some '\n' := by
    rw [hbody, List.getLast?_concat]
    rintro ⟨⟩
    exact absurd hd (by decide)
  -- either the header gives the margin, which then counts from the column of the key, or the first
  -- line shows it
  have hindent : (if startsBlank body then some 2 else none).map (column + ·) = some 2 ∨
      ((if startsBlank body then some 2 else none).map (column + ·) = none ∧
        ShowsColumn body) := by
    cases hstart : startsBlank body with
    | true =>
        obtain rfl := hcolumn.resolve_right (by simp [hstart])
        exact .inl rfl
    | false => exact .inr ⟨rfl, h.showsColumn hstart⟩
  -- the block is read to its end, with the margin of two columns
  have hread (p : Position) (hp : p.column = 0) := exists_readBlock_literal (p := p)
    (if tail = [] then .strip else .clip) (column + 1) (by split <;> simp)
    (by omega) Nat.two_pos hindent hp h.breaks hne hlast (.inr rfl)
  have htokens := Scanner.tokens?_literal column hword hlength
    (readBlockHeader_literalMarks body tail) isBreak_of_mem_literalMarks hread
  refine Value.ofDocument?_key hkey hkept (hdoc ▸ htokens) (NodeReader.reads_scalar .literal _)
    (denotes_scalar ?_ 127)
  rcases h.tail with rfl | rfl <;> rfl

/-- Behind a key further to the right less is read. -/
theorem ofDocument?_ne (h : IsLiteral body tail) (hkey : isStringWord key = true)
    (hkept : ∀ c ∈ doc.toList, isKept c = true)
    (hdoc : doc.toList = spaces column ++ (key.toList ++ ':' :: ' ' :: '|' ::
      (literalMarks body tail ++ '\n' :: (indentLines 2 true body ++ ['\n']))))
    (hcolumn : ¬(column = 0 ∨ (column = 1 ∧ startsBlank body = false))) :
    Value.ofDocument? doc ≠
      some (.mapping [(.string key, .string (String.ofList (body ++ tail)))]) := by
  obtain ⟨hword, hlength, -⟩ := isStringWord_iff.mp hkey
  obtain ⟨front, d, hbody, hd⟩ := h.last
  intro hread
  cases htokens : Scanner.tokens? doc.toList with
  | none =>
      rw [Value.ofDocument?_of_tokens?_eq_none hkept htokens] at hread
      cases hread
  | some ts =>
      obtain ⟨p, l, hp, hblock, hprefix⟩ := Scanner.exists_prefix_tokens?_literal column hword
        hlength (readBlockHeader_literalMarks body tail) isBreak_of_mem_literalMarks
        (hdoc ▸ htokens)
      have htext := Value.eq_of_ofDocument? hkey hkept htokens hprefix hread
      -- the block looks for its lines further to the right than the two columns where they stand
      have hmargin : 2 < (Block.literal (if tail = [] then .strip else .clip)
          ((if startsBlank body then some 2 else none).map (column + ·)) (column + 1)).column := by
        cases hstart : startsBlank body <;>
          simp [Block.literal, Block.column, hstart] at hcolumn ⊢ <;> omega
      have hlt := length_lt_of_readBlock (n := 2) rfl hmargin hp ⟨d, by simp [hbody], hd⟩ hblock
      rw [← Value.string.inj htext, String.toList_ofList, List.length_append] at hlt
      rcases h.tail with rfl | rfl <;>
        simp [Block.extent, Block.literal, Chomping.kept] at hlt

/-- **A block behind a key** comes back just if the key stands in the first column, or in the second
one and the first line of the text shows where the lines stand. -/
theorem ofDocument?_iff (h : IsLiteral body tail) (hkey : isStringWord key = true)
    (hkept : ∀ c ∈ doc.toList, isKept c = true)
    (hdoc : doc.toList = spaces column ++ (key.toList ++ ':' :: ' ' :: '|' ::
      (literalMarks body tail ++ '\n' :: (indentLines 2 true body ++ ['\n'])))) :
    Value.ofDocument? doc =
        some (.mapping [(.string key, .string (String.ofList (body ++ tail)))]) ↔
      column = 0 ∨ (column = 1 ∧ startsBlank body = false) := by
  constructor
  · intro hread
    by_contra hcolumn
    exact h.ofDocument?_ne hkey hkept hdoc hcolumn hread
  · exact h.ofDocument?_of_column_le hkey hkept hdoc

end IsLiteral

end Documents

end AgentPipeline.Yaml
