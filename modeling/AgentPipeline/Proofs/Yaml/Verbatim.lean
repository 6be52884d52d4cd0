import AgentPipeline.Proofs.Yaml.Inline

/-!
# Values of the user

The writer lays a value out from the left, and its lines are then moved to where the value belongs:
below a key, behind a key, or behind the dash of an item. What has been moved comes back as the same
value as long as the value comes back at all and its lines are the ones that the writer ended with
line feeds (`Value.Movable`).

The lines of collections are moved together, so these come back at any column
(`Value.Movable.ofDocument?_collection`). Of a scalar only the first line is moved. That does not
matter on one line; but the lines of a literal block stay at the left, and the block comes back just
if its key stands there as well (`Value.ofDocument?_valueEntry_iff`).
-/

namespace AgentPipeline.Yaml

variable {v : Value} {text : List Char} {key : String} {indent : Nat}

/-- A value as a document of its own, whose last line is ended. -/
def Value.document (v : Value) : String :=
  match v.print with
  | some text => String.ofList (text ++ lineEnd text)
  | none => ""

/-- **A value that can be moved.** It has a text, and comes back as the only item of a sequence at
the left. When the text is moved, its lines are taken to end with line feeds only, and white space
at its end is lost. -/
structure Value.Movable (v : Value) (text : List Char) : Prop where
  print : v.print = some text
  /-- all lines of the text end with line feeds -/
  breaks : ∀ c ∈ text, isBreak c = true → c = '\n'
  /-- there is no white space at the end but for a single line feed -/
  ends : text = Text.trimEnd text ∨ text = Text.trimEnd text ++ ['\n']
  /-- as an item the value comes back -/
  reads : Value.ofDocument? (Value.sequence [v]).document = some (.sequence [v])

/-- The text of a collection starts on its first line. -/
theorem startsOnLine_print (hv : v.isCollection = true) (huntagged : v.isUntagged = true)
    (hprint : v.print = some text) : StartsOnLine text := by
  have hblock {lines : List (List Char)} (hne : lines ≠ [])
      (h : ∀ line ∈ lines, StartsOnLine line) :
      StartsOnLine (blockGap .document false 0 ++ joinAt 0 lines) := by
    obtain ⟨line, lines, rfl⟩ := List.exists_cons_of_ne_nil hne
    exact startsOnLine_joinAt 0 (h line List.mem_cons_self)
  rw [Value.print] at hprint
  cases v with
  | sequence items =>
      cases items with
      | nil =>
          obtain rfl := Option.some.inj hprint
          exact ⟨'[', [']'], rfl, by decide⟩
      | cons item items =>
          rw [printNode] at hprint
          obtain ⟨lines, hlines, hprint⟩ := Option.bind_eq_some_iff.mp hprint
          obtain rfl := Option.some.inj hprint
          exact hblock (ne_nil_of_printItems hlines) (startsOnLine_of_printItems hlines)
  | mapping entries =>
      cases entries with
      | nil =>
          obtain rfl := Option.some.inj hprint
          exact ⟨'\x7b', ['\x7d'], rfl, by decide⟩
      | cons entry entries =>
          rw [printNode] at hprint
          split at hprint
          · cases hprint
          · obtain ⟨lines, hlines, hprint⟩ := Option.bind_eq_some_iff.mp hprint
            obtain rfl := Option.some.inj hprint
            exact hblock (ne_nil_of_printEntries hlines)
              (startsOnLine_of_printEntries huntagged hlines)
  | _ => cases hv

/-- The reader keeps spaces as they are. -/
theorem isKept_of_mem_spaces {n : Nat} : ∀ c ∈ spaces n, isKept c = true := by
  intro c hc
  rw [List.eq_of_mem_replicate hc]
  decide

/-- Indenting a text adds nothing that the reader drops. -/
theorem isKept_of_mem_padLines {cs : List Char} {n : Nat} (h : ∀ c ∈ cs, isKept c = true) :
    ∀ c ∈ padLines n cs, isKept c = true := by
  intro c hc
  obtain ⟨d, hd, hc⟩ := List.mem_flatMap.mp hc
  split at hc
  · rcases List.mem_cons.mp hc with rfl | hc
    · decide
    · rw [List.eq_of_mem_replicate hc]
      decide
  · rw [List.mem_singleton.mp hc]
    exact h d hd

/-- The end of the line is looked for behind a character that breaks none. -/
theorem lineEnd_cons_cons {c d : Char} {cs : List Char} (hd : isBreak d = false) :
    lineEnd (c :: d :: cs) = lineEnd cs := by
  rw [lineEnd, lineEnd, List.getLast?_cons, List.getLast?_cons]
  cases cs.getLast? with
  | none => simp [hd]
  | some e => rfl

namespace Value.Movable

/-- What is moved is the text without white space at its end. -/
theorem printed_eq (h : v.Movable text) : printed v = Text.trimEnd text := by
  rw [printed, h.print]
  rfl

/-- What is moved is part of the text. -/
theorem subset (h : v.Movable text) : printed v ⊆ text := by
  intro c hc
  rw [h.printed_eq] at hc
  rcases h.ends with heq | heq
  · rwa [heq]
  · rw [heq]
    exact List.mem_append_left _ hc

/-- What is moved does not end in a line feed. -/
theorem getLast?_ne (h : v.Movable text) : (printed v).getLast? ≠ some '\n' := by
  rw [h.printed_eq]
  intro hlast
  exact absurd (Text.getLast?_dropTail _ text _ hlast) (by decide)

/-- The last line is ended once. -/
theorem append_lineEnd (h : v.Movable text) : text ++ lineEnd text = printed v ++ ['\n'] := by
  rcases h.ends with heq | heq <;> rw [← h.printed_eq] at heq
  · have hbreak : (printed v).getLast?.any isBreak = false := by
      rw [Option.any_eq_false]
      intro c hc
      by_contra hbreak
      rw [Bool.not_eq_false] at hbreak
      have hnewline := h.breaks c (h.subset (List.mem_of_getLast? hc)) hbreak
      exact h.getLast?_ne (hnewline ▸ hc)
    rw [heq, lineEnd, hbreak]
    rfl
  · rw [heq, lineEnd, List.getLast?_concat]
    simp [isBreak]

/-- The document of a value as the only item of a sequence. -/
theorem toList_document {cs : List Char} (hitem : printNode .item false 0 v = some (' ' :: cs)) :
    (Value.sequence [v]).document.toList = '-' :: ' ' :: (cs ++ lineEnd cs) := by
  have hprint : (Value.sequence [v]).print = some ('-' :: ' ' :: cs) := by
    rw [print_singleton, hitem]
    rfl
  rw [document, hprint, String.toList_ofList, lineEnd_cons_cons (by decide)]
  rfl

/-- The sequence of one collection has the lines of the collection below its dash. -/
theorem toList_document_collection (h : v.Movable text) (hv : v.isCollection = true)
    (huntagged : v.isUntagged = true) : (Value.sequence [v]).document.toList =
      '-' :: ' ' :: (indentLines 2 false (printed v) ++ ['\n']) := by
  have hitem := printNode_item hv huntagged
  rw [h.print, Option.map_some] at hitem
  have hend (fresh : Bool) : indentLines 2 fresh ['\n'] = ['\n'] := rfl
  have happend (cs : List Char) : indentLines 2 false cs ++ lineEnd cs =
      indentLines 2 false (cs ++ lineEnd cs) := by rw [indentLines_append, indentLines_lineEnd]
  rw [toList_document hitem, lineEnd_indentLines, happend, h.append_lineEnd, indentLines_append,
    hend]

/-- The sequence of one scalar has the scalar behind its dash, as it is. -/
theorem toList_document_scalar (h : v.Movable text) (hv : v.isCollection = false)
    (huntagged : v.isUntagged = true) :
    (Value.sequence [v]).document.toList = '-' :: ' ' :: (printed v ++ ['\n']) := by
  have hitem := printNode_item_scalar hv huntagged
  rw [h.print, Option.map_some] at hitem
  rw [toList_document hitem, h.append_lineEnd]

/-- The text of a value that comes back can stand in a document. -/
theorem isKept_of_mem (h : v.Movable text)
    (hsubset : printed v ⊆ (Value.sequence [v]).document.toList) :
    ∀ c ∈ printed v, isKept c = true := by
  have hreads := h.reads
  rw [Value.ofDocument?] at hreads
  obtain ⟨d, hparse, -⟩ := Option.bind_eq_some_iff.mp hreads
  obtain ⟨cs, hdecode, -⟩ := Option.bind_eq_some_iff.mp hparse
  rw [decode] at hdecode
  split at hdecode
  · next hallowed =>
    intro c hc
    cases hbreak : isBreak c with
    | true =>
        rw [h.breaks c (h.subset hc) hbreak]
        decide
    | false => exact isKept_of_isAllowed (List.all_eq_true.mp hallowed c (hsubset hc)) hbreak
  · cases hdecode

/-! ### Collections -/

/-- A text that starts on its first line leaves something to be moved. -/
theorem ne_nil (h : v.Movable text) (hstarts : StartsOnLine text) : printed v ≠ [] := by
  obtain ⟨c, rest, rfl, hbreak⟩ := hstarts
  intro hnil
  have hend := h.append_lineEnd
  rw [hnil] at hend
  obtain ⟨rfl, -⟩ := List.cons.inj hend
  cases hbreak

/-- The reader keeps the characters of a movable collection. -/
theorem isKept_of_mem_collection (h : v.Movable text) (hv : v.isCollection = true)
    (huntagged : v.isUntagged = true) : ∀ c ∈ printed v, isKept c = true :=
  h.isKept_of_mem fun _ hc => h.toList_document_collection hv huntagged ▸ List.mem_cons_of_mem _
    (List.mem_cons_of_mem _ (List.mem_append_left _ (subset_indentLines hc)))

/-- So it does with the sequence of this collection. -/
theorem isKept_document_collection (h : v.Movable text) (hv : v.isCollection = true)
    (huntagged : v.isUntagged = true) :
    ∀ c ∈ (Value.sequence [v]).document.toList, isKept c = true := by
  rw [h.toList_document_collection hv huntagged]
  simp only [List.forall_mem_cons, List.forall_mem_append]
  exact ⟨by decide, by decide, isKept_of_mem_indentLines (h.isKept_of_mem_collection hv huntagged),
    by decide, List.forall_mem_nil _⟩

/-- A movable value has tokens as the item of a sequence. -/
theorem exists_tokens? (h : v.Movable text)
    (hkept : ∀ c ∈ (Value.sequence [v]).document.toList, isKept c = true) :
    ∃ ts, Scanner.tokens? (Value.sequence [v]).document.toList = some ts := by
  refine Option.ne_none_iff_exists'.mp fun hnone => ?_
  have hreads := h.reads
  rw [Value.ofDocument?_of_tokens?_eq_none hkept hnone] at hreads
  cases hreads

/-- **A collection in a deeper place**: as an item and below a key it comes back. -/
theorem ofDocument?_collection (h : v.Movable text) (hv : v.isCollection = true)
    (huntagged : v.isUntagged = true) (indent : Nat) (hkey : isStringWord key = true) :
    Value.ofDocument? (listItem indent v ++ "\n") = some (.sequence [v]) ∧
      Value.ofDocument? (valueEntry indent key v ++ "\n") = some (.mapping [(.string key, v)]) := by
  have hne := h.ne_nil (startsOnLine_print hv huntagged h.print)
  have hbreaks : ∀ c ∈ printed v, isBreak c = true → c = '\n' := fun c hc =>
    h.breaks c (h.subset hc)
  -- the two documents, character by character
  have hitem : (listItem indent v ++ "\n").toList =
      spaces indent ++ '-' :: ' ' :: (padLines (indent + 2) (printed v) ++ ['\n']) := by
    rw [String.toList_append, toList_listItem hbreaks hne h.getLast?_ne]
    simp
  have hentry : (valueEntry indent key v ++ "\n").toList = spaces indent ++ (key.toList ++
      ':' :: '\n' :: (spaces (indent + 2) ++ (padLines (indent + 2) (printed v) ++ ['\n']))) := by
    rw [String.toList_append, toList_valueEntry hv hbreaks hne h.getLast?_ne]
    simp
  have hpadded : ∀ c ∈ padLines (indent + 2) (printed v), isKept c = true :=
    isKept_of_mem_padLines (h.isKept_of_mem_collection hv huntagged)
  have hkeptDocument := h.isKept_document_collection hv huntagged
  have hkeptItem : ∀ c ∈ (listItem indent v ++ "\n").toList, isKept c = true := by
    rw [hitem]
    simp only [List.forall_mem_cons, List.forall_mem_append]
    exact ⟨isKept_of_mem_spaces, by decide, by decide, hpadded, by decide, List.forall_mem_nil _⟩
  have hkeptEntry : ∀ c ∈ (valueEntry indent key v ++ "\n").toList, isKept c = true := by
    rw [hentry]
    simp only [List.forall_mem_cons, List.forall_mem_append]
    exact ⟨isKept_of_mem_spaces, isKept_of_isStringWord hkey, by decide, by decide,
      isKept_of_mem_spaces, hpadded, by decide, List.forall_mem_nil _⟩
  -- the tokens of the item are found again in both documents, and with them its node
  obtain ⟨ts, htokens⟩ := h.exists_tokens? hkeptDocument
  obtain ⟨ts, rfl, hplaces⟩ := Scanner.exists_tokens?_of_item hbreaks
    (h.toList_document_collection hv huntagged ▸ htokens)
  obtain ⟨n, left, hn, hroot, hvalue⟩ := exists_root?_of_item hkeptDocument htokens h.reads hv
  obtain ⟨hitems, hentries⟩ := hplaces fun ts' style text => NodeReader.ne_scalar_of_item hn hroot
  constructor
  · rw [← h.reads, Value.ofDocument?, Value.ofDocument?, parse?_eq_bind hkeptItem,
      parse?_eq_bind hkeptDocument, htokens, hitem, hitems indent]
  · obtain ⟨hword, hlength, -⟩ := isStringWord_iff.mp hkey
    rw [Value.ofDocument?, parse?_eq_bind hkeptEntry, hentry, hentries indent key hword hlength,
      Option.bind_some, NodeReader.root?_entry hn hroot]
    exact read?_entry hkey hvalue

/-! ### Scalars -/

/-- The entry of a scalar is the key, a colon and the scalar on one line, or what begins there. -/
theorem toList_valueEntry_scalar (hv : v.isCollection = false) (hnull : v ≠ .null)
    (indent : Nat) (key : String) : (valueEntry indent key v ++ "\n").toList =
      spaces indent ++ (key.toList ++ ':' :: ' ' :: (printed v ++ ['\n'])) := by
  have hentry : valueEntry indent key v =
      pad indent ++ key ++ ": " ++ String.ofList (printed v) := by
    cases v with
    | null => exact absurd rfl hnull
    | sequence => cases hv
    | mapping => cases hv
    | _ => rfl
  rw [hentry]
  simp [pad]

/-- The reader keeps the characters of a movable scalar. -/
theorem isKept_of_mem_scalar (h : v.Movable text) (hv : v.isCollection = false)
    (huntagged : v.isUntagged = true) : ∀ c ∈ printed v, isKept c = true :=
  h.isKept_of_mem fun _ hc => h.toList_document_scalar hv huntagged ▸
    List.mem_cons_of_mem _ (List.mem_cons_of_mem _ (List.mem_append_left _ hc))

/-- So it does with the sequence of this scalar. -/
theorem isKept_document_scalar (h : v.Movable text) (hv : v.isCollection = false)
    (huntagged : v.isUntagged = true) :
    ∀ c ∈ (Value.sequence [v]).document.toList, isKept c = true := by
  rw [h.toList_document_scalar hv huntagged]
  simp only [List.forall_mem_cons, List.forall_mem_append]
  exact ⟨by decide, by decide, h.isKept_of_mem_scalar hv huntagged, by decide, List.forall_mem_nil _⟩

/-- A scalar on one line is moved whole. -/
theorem printed_of_line (h : v.Movable text) (hline : '\n' ∉ text) : printed v = text := by
  rw [h.printed_eq]
  rcases h.ends with heq | heq
  · exact heq.symm
  · exact absurd (heq ▸ List.mem_append_right _ List.mem_cons_self) hline

/-- **A scalar on one line** is scanned as what it is written like. -/
theorem exists_scansAs (h : v.Movable text) (hv : v.isCollection = false)
    (huntagged : v.isUntagged = true) (hnull : v ≠ .null)
    (hstyle : ∀ s, v = .string s → styleOf s ≠ .literal) :
    ∃ style w, Scanner.ScansAs style w (printed v) ∧ Reader.spelled style w = some v := by
  have hprint := h.print
  -- on one line nothing is lost when the scalar is moved
  have hprinted (hline : ∀ c ∈ text, isBreak c = false) : printed v = text :=
    h.printed_of_line fun hmem => absurd (hline _ hmem) (by decide)
  cases v with
  | null => exact absurd rfl hnull
  | sequence => cases hv
  | mapping => cases hv
  | tagged => cases huntagged
  | bool b =>
      obtain rfl := Option.some.inj hprint
      have hallows : allowsPlain (toString b).toList = true := by cases b <;> decide
      have hscans := Scanner.scansAs_plain hallows (by cases b <;> decide)
      rw [String.ofList_toList] at hscans
      refine ⟨.plain, toString b, ?_, by cases b <;> rfl⟩
      exact (hprinted (isBreak_of_allowsPlain hallows)).symm ▸ hscans
  | number n =>
      obtain rfl := Option.some.inj hprint
      obtain ⟨hne, hallows⟩ := allowsPlain_text n
      have hne : n.text.toList ≠ [] := fun hnil => hne (String.toList_eq_nil_iff.mp hnil)
      have hscans := Scanner.scansAs_plain hallows hne
      have heq : printed (.number n) = n.text.toList := hprinted (isBreak_of_allowsPlain hallows)
      have hdocument := h.toList_document_scalar rfl rfl
      rw [String.ofList_toList] at hscans
      exact ⟨.plain, n.text, heq.symm ▸ hscans, spelled_of_item hallows hne
        (h.isKept_document_scalar rfl rfl) (heq ▸ hdocument) h.reads⟩
  | string s =>
      obtain rfl := Option.some.inj hprint
      obtain ⟨hline, style, hscans, hspelled⟩ :=
        exists_scansAs_stringText 2 (hstyle s rfl) h.breaks
      exact ⟨style, s, (hprinted hline).symm ▸ hscans, hspelled⟩

/-- **The text of a string of several lines** is a literal block, of which at most one line feed at
the end belongs to the string. -/
theorem exists_isLiteral {s : String} (h : (Value.string s).Movable text)
    (hstyle : styleOf s = .literal) : ∃ body tail, IsLiteral body tail ∧ s.toList = body ++ tail ∧
      printed (.string s) =
        '|' :: (literalMarks body tail ++ '\n' :: indentLines 2 true body) := by
  have htext : text = literalHeader s.toList ++ '\n' :: indentLines 2 true s.toList :=
    (Option.some.inj h.print).symm.trans (stringText_literal 2 hstyle)
  obtain ⟨hmem, hprintable⟩ := of_styleOf_eq_literal hstyle
  have hbreaks : ∀ c ∈ s.toList, isBreak c = true → c = '\n' := fun c hc => h.breaks c
    (htext ▸ List.mem_append_right _ (List.mem_cons_of_mem _ (subset_indentLines hc)))
  obtain ⟨front, d, hconcat⟩ :=
    (List.eq_nil_or_concat' s.toList).resolve_left (List.ne_nil_of_mem hmem)
  have hend := h.append_lineEnd
  have htextLast : text.getLast? = some d := by
    rw [htext, getLast?_literalText, hconcat, List.getLast?_concat]
    rfl
  -- what is lost at the end is the line feed of the last line, if the text has one
  rw [lineEnd, htextLast, Option.any_some] at hend
  cases hd : isBreak d with
  | false =>
      have hliteral : IsLiteral s.toList [] :=
        ⟨hprintable, hbreaks, ⟨front, d, hconcat, hd⟩, .inl rfl⟩
      have hheader := hliteral.literalHeader_eq
      rw [List.append_nil] at hheader
      rw [hd, if_neg Bool.false_ne_true] at hend
      refine ⟨s.toList, [], hliteral, (List.append_nil _).symm, ?_⟩
      rw [← List.append_cancel_right hend, htext, hheader]
      rfl
  | true =>
      rw [hconcat, List.forall_mem_append] at hprintable hbreaks
      obtain rfl := hbreaks.2 d List.mem_cons_self hd
      -- the text ends its last line, and this line feed is written at the end of the block
      have hlines : indentLines 2 true s.toList = indentLines 2 true front ++ ['\n'] := by
        rw [hconcat, indentLines_append]
        rfl
      rw [hd, if_pos rfl, List.append_nil, htext, hlines, ← List.cons_append,
        ← List.append_assoc] at hend
      have hprinted := (List.append_cancel_right hend).symm
      have hprintedLast := h.getLast?_ne
      rw [hprinted, getLast?_literalText] at hprintedLast
      obtain ⟨back, e, rfl⟩ := (List.eq_nil_or_concat' front).resolve_left
        (by rintro rfl; exact hprintedLast rfl)
      have he : isBreak e = false := by
        by_contra he
        rw [Bool.not_eq_false] at he
        have hnewline := hbreaks.1 e (by simp) he
        exact hprintedLast (by simp [hnewline])
      have hliteral : IsLiteral (back ++ [e]) ['\n'] :=
        ⟨hprintable.1, hbreaks.1, ⟨back, e, rfl, he⟩, .inr rfl⟩
      refine ⟨back ++ [e], ['\n'], hliteral, hconcat, ?_⟩
      rw [hprinted, hconcat, hliteral.literalHeader_eq]
      rfl

end Value.Movable

/-- Whether a value may stand behind a key at a column. The lines of a literal block stand two
columns from the left, wherever the key stands, and its header counts from the column of the key. -/
def Value.hasRoom (column : Nat) : Value → Bool
  | .string s => styleOf s != .literal || column == 0 || (column == 1 && !startsBlank s.toList)
  | _ => true

/-- A string has room unless it is a literal block that its key has been moved away from. -/
theorem Value.hasRoom_string {s : String} {column : Nat} : (Value.string s).hasRoom column = true ↔
    styleOf s ≠ .literal ∨ column = 0 ∨ (column = 1 ∧ startsBlank s.toList = false) := by
  simp [Value.hasRoom, or_assoc]

namespace Value.Movable

/-- The entry of a scalar. -/
theorem ofDocument?_scalar_iff (h : v.Movable text) (hv : v.isCollection = false)
    (huntagged : v.isUntagged = true) (hnull : v ≠ .null) (indent : Nat)
    (hkey : isStringWord key = true) :
    Value.ofDocument? (valueEntry indent key v ++ "\n") = some (.mapping [(.string key, v)]) ↔
      v.hasRoom indent = true := by
  have hentry := toList_valueEntry_scalar hv hnull indent key
  have hkept : ∀ c ∈ (valueEntry indent key v ++ "\n").toList, isKept c = true := by
    rw [hentry]
    simp only [List.forall_mem_cons, List.forall_mem_append]
    exact ⟨isKept_of_mem_spaces, isKept_of_isStringWord hkey, by decide, by decide,
      h.isKept_of_mem_scalar hv huntagged, by decide, List.forall_mem_nil _⟩
  by_cases hstyle : ∃ s, v = .string s ∧ styleOf s = .literal
  · obtain ⟨s, rfl, hstyle⟩ := hstyle
    obtain ⟨body, tail, hliteral, hs, hprinted⟩ := h.exists_isLiteral hstyle
    have hdoc : (valueEntry indent key (.string s) ++ "\n").toList = spaces indent ++ (key.toList ++
        ':' :: ' ' :: '|' :: (literalMarks body tail ++
          '\n' :: (indentLines 2 true body ++ ['\n']))) := by
      rw [hentry, hprinted]
      simp
    have hread := hliteral.ofDocument?_iff hkey hkept hdoc
    rw [← hs, String.ofList_toList] at hread
    rw [hread, hasRoom_string, hs, hliteral.startsBlank_append]
    simp [hstyle]
  · have hstyle : ∀ s, v = .string s → styleOf s ≠ .literal := fun s hs hliteral =>
      hstyle ⟨s, hs, hliteral⟩
    obtain ⟨style, w, hscans, hspelled⟩ := h.exists_scansAs hv huntagged hnull hstyle
    have hroom : v.hasRoom indent = true := by
      cases v with
      | string s => exact hasRoom_string.mpr (.inl (hstyle s rfl))
      | _ => rfl
    exact iff_of_true (Value.ofDocument?_of_scansAs hkey hscans hkept hspelled hentry) hroom

end Value.Movable

/-- **Values of the user come back.** The entry of a value that comes back as an item holds the same
value, at any column and behind any word, unless it is a literal block that has no room there; and
the item of a collection comes back at any column. -/
theorem Value.ofDocument?_valueEntry_iff (h : v.Movable text) (huntagged : v.isUntagged = true)
    (hnull : v ≠ .null) (hkey : isStringWord key = true) (indent : Nat) :
    (Value.ofDocument? (valueEntry indent key v ++ "\n") = some (.mapping [(.string key, v)]) ↔
        v.hasRoom indent = true) ∧
      (v.isCollection = true →
        Value.ofDocument? (listItem indent v ++ "\n") = some (.sequence [v])) := by
  cases hv : v.isCollection with
  | false => exact ⟨h.ofDocument?_scalar_iff hv huntagged hnull indent hkey, nofun⟩
  | true =>
      obtain ⟨hitem, hentry⟩ := h.ofDocument?_collection hv huntagged indent hkey
      have hroom : v.hasRoom indent = true := by
        cases v with
        | string s => cases hv
        | _ => rfl
      exact ⟨iff_of_true hentry hroom, fun _ => hitem⟩

/-- A mapping with a sequence that stands flush with its key, and with a block whose lines show
their margin and have an empty one among them. -/
theorem Value.ofDocument?_valueEntry_job :
    let v := Value.mapping [(.string "with", .sequence [.string "x: y"]),
      (.string "run", .string "a\n\n b\n")]
    let text := "with:\n- 'x: y'\nrun: |\n  a\n\n   b\n".toList
    v.Movable text ∧ v.isUntagged = true ∧ v ≠ .null ∧ isStringWord "job" = true ∧
      (Value.ofDocument? (valueEntry 3 "job" v ++ "\n") = some (.mapping [(.string "job", v)]) ↔
          v.hasRoom 3 = true) ∧
        (v.isCollection = true →
          Value.ofDocument? (listItem 3 v ++ "\n") = some (.sequence [v])) := by
  intro v text
  -- the value comes back as an item: its tokens, its nodes, and what these denote
  have hreads : Value.ofDocument? (Value.sequence [v]).document = some (.sequence [v]) := by
    have hdocument : (Value.sequence [v]).document =
        "- with:\n  - 'x: y'\n  run: |\n    a\n\n     b\n" := rfl
    have hkept : ∀ c ∈ (Value.sequence [v]).document.toList, isKept c = true := by
      rw [hdocument]
      exact List.all_eq_true.mp (by decide +kernel)
    have htokens : Scanner.tokens? (Value.sequence [v]).document.toList = some
        [.blockSequenceStart, .blockEntry, .blockMappingStart, .key, .scalar .plain "with", .value,
          .blockEntry, .scalar .single "x: y", .key, .scalar .plain "run", .value,
          .scalar .literal "a\n\n b\n", .blockEnd, .blockEnd] := by
      rw [hdocument]
      decide +kernel
    have hparse : Document.parse? (Value.sequence [v]).document = some (.ofRoot (some
        (.sequence .none [.mapping .none
          [(.scalar .none .plain "with", .sequence .none [.scalar .none .single "x: y"]),
            (.scalar .none .plain "run", .scalar .none .literal "a\n\n b\n")]]))) := by
      rw [parse?_eq_bind hkept, htokens]
      rfl
    have hwith : Denotes 126 (.scalar .none .plain "with") (.string "with") :=
      denotes_word (by decide) 126
    have hrun : Denotes 126 (.scalar .none .plain "run") (.string "run") :=
      denotes_word (by decide) 126
    have hitems : Denotes 126 (.sequence .none [.scalar .none .single "x: y"])
        (.sequence [.string "x: y"]) :=
      denotes_sequence (l := [()]) (f := fun _ => .scalar .none .single "x: y")
        (g := fun _ => .string "x: y") fun _ _ => denotes_scalar rfl 125
    have hblock : Denotes 126 (.scalar .none .literal "a\n\n b\n") (.string "a\n\n b\n") :=
      denotes_scalar rfl 126
    have hitem : Denotes 127 _ v := denotes_mapping
      (l := [((.scalar .none .plain "with", .sequence .none [.scalar .none .single "x: y"]),
          (.string "with", .sequence [.string "x: y"])),
        ((.scalar .none .plain "run", .scalar .none .literal "a\n\n b\n"),
          (.string "run", .string "a\n\n b\n"))])
      (f := (·.1)) (g := (·.2)) (by simp [hwith, hitems, hrun, hblock]) rfl
    exact Value.ofDocument?_of_denotes hparse
      (denotes_sequence (l := [()]) (f := fun _ => _) (g := fun _ => v) fun _ _ => hitem)
  have hbreaks : ∀ c ∈ text, isBreak c = true → c = '\n' := by
    have hall : text.all (fun c => !isBreak c || c == '\n') = true := by decide +kernel
    simpa [or_iff_not_imp_left] using hall
  have hmovable : v.Movable text := ⟨rfl, hbreaks, by decide +kernel, hreads⟩
  have hkey : isStringWord "job" = true := by decide
  exact ⟨hmovable, rfl, nofun, hkey, Value.ofDocument?_valueEntry_iff hmovable rfl nofun hkey 3⟩

/-- The lines of a string stay where they are when its key stands further to the right, and then
there is no document. -/
theorem Value.ofDocument?_valueEntry_eq_none :
    let v := Value.string "a\nb"
    v.isUntagged = true ∧ v ≠ .null ∧ isStringWord "v" = true ∧
      valueEntry 4 "v" v = "    v: |-\n  a\n  b" ∧
        ∀ tail ∈ ["", "\n"], Value.ofDocument? (valueEntry 4 "v" v ++ tail) = none := by
  intro v
  have hentry : valueEntry 4 "v" v = "    v: |-\n  a\n  b" := rfl
  refine ⟨rfl, nofun, by decide, hentry, fun tail htail => ?_⟩
  have hkept : ∀ c ∈ (valueEntry 4 "v" v ++ tail).toList, isKept c = true := by
    rw [hentry]
    rcases List.mem_pair.mp htail with rfl | rfl <;> exact List.all_eq_true.mp (by decide +kernel)
  have htokens : Scanner.tokens? (valueEntry 4 "v" v ++ tail).toList = some
      [.blockMappingStart, .key, .scalar .plain "v", .value, .scalar .literal "", .blockEnd,
        .scalar .plain "a b"] := by
    rw [hentry]
    rcases List.mem_pair.mp htail with rfl | rfl <;> decide +kernel
  rw [Value.ofDocument?, parse?_eq_bind hkept, htokens]
  rfl

end AgentPipeline.Yaml
