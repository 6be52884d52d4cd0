import AgentPipeline.Proofs.Yaml.Escape
import AgentPipeline.Proofs.Yaml.Literal
import AgentPipeline.Proofs.Yaml.Style

/-!
# Texts of values in another column

The text of a value depends on the column where it starts in that its further lines are indented
up to there. So the text in a column further to the right has the same lines, and those that are not
empty are indented further (`printItems_add`, `printEntries_add`). In particular the text of
a sequence with a single item is the text of the item behind a dash, indented by two
(`print_singleton`).
-/

namespace AgentPipeline.Yaml

variable {c : Char} {cs xs ys : List Char} {k n : Nat} {fresh : Bool}

/-! ### Lines further to the right -/

/-- Whether a line starts behind some characters, which start on a new line if `fresh` holds. -/
def startsLine (fresh : Bool) (cs : List Char) : Bool :=
  (cs.getLast?.map isBreak).getD fresh

/-- A line starts behind some characters if it does behind the ones that follow the first. -/
theorem startsLine_cons : startsLine fresh (c :: cs) = startsLine (isBreak c) cs := by
  rw [startsLine, startsLine, List.getLast?_cons]
  cases cs.getLast? <;> rfl

/-- No line starts behind characters that end none. -/
theorem startsLine_of_notBreak (h : ∀ c ∈ cs, isBreak c = false) : startsLine false cs = false := by
  rw [startsLine]
  cases hlast : cs.getLast? with
  | none => rfl
  | some c => exact h c (List.mem_of_getLast? hlast)

/-- The lines of a text in two parts are indented part by part, where the second part starts a line
or goes on with one. -/
theorem indentLines_append :
    indentLines k fresh (xs ++ ys) =
      indentLines k fresh xs ++ indentLines k (startsLine fresh xs) ys := by
  induction xs generalizing fresh with
  | nil => rfl
  | cons c xs ih =>
      rw [List.cons_append, indentLines, indentLines, startsLine_cons]
      cases hbreak : isBreak c <;> simp [ih]

/-- What stands on one line. -/
theorem indentLines_line (h : ∀ c ∈ xs, isBreak c = false) (hne : xs ≠ []) :
    indentLines k fresh (xs ++ ys) =
      (if fresh then spaces k else []) ++ (xs ++ indentLines k false ys) := by
  have hline : startsLine fresh xs = false := by
    obtain ⟨c, cs, rfl⟩ := List.exists_cons_of_ne_nil hne
    rw [List.forall_mem_cons] at h
    rw [startsLine_cons, h.1, startsLine_of_notBreak h.2]
  rw [indentLines_append, hline, indentLines_of_notBreak h]
  cases fresh <;> simp [hne, spaces]

/-- The characters that are no line breaks stay as they are on a line that has begun. -/
theorem indentLines_eq_self (h : ∀ c ∈ cs, isBreak c = false) : indentLines k false cs = cs := by
  rw [indentLines_of_notBreak h]
  exact if_neg (by simp)

/-- Spaces end no line. -/
theorem isBreak_of_mem_spaces (h : c ∈ spaces n) : isBreak c = false := by
  rw [List.eq_of_mem_replicate h]
  decide

/-- Spaces behind spaces are as many as both. -/
theorem spaces_append_spaces : spaces k ++ spaces n = spaces (n + k) := by
  rw [spaces, spaces, spaces, List.replicate_append_replicate, Nat.add_comm]

/-- The indentation of a line is indented further. -/
theorem indentLines_spaces (hbreak : isBreak c = false) :
    indentLines k true (spaces n ++ c :: cs) = spaces (n + k) ++ c :: indentLines k false cs := by
  have hline : ∀ d ∈ spaces n ++ [c], isBreak d = false := by
    simp only [List.forall_mem_append, List.forall_mem_singleton]
    exact ⟨fun _ => isBreak_of_mem_spaces, hbreak⟩
  have h : indentLines k true (spaces n ++ [c] ++ cs) = _ := indentLines_line hline (by simp)
  rw [List.append_assoc, List.singleton_append] at h
  rw [h, if_pos rfl, List.append_assoc, ← List.append_assoc, spaces_append_spaces]
  rfl

/-- Lines that are indented twice are indented by the sum. -/
theorem indentLines_indentLines :
    indentLines k fresh (indentLines n fresh cs) = indentLines (n + k) fresh cs := by
  induction cs generalizing fresh with
  | nil => rfl
  | cons c cs ih =>
      cases hbreak : isBreak c with
      | true =>
          have hline (n : Nat) (cs : List Char) :
              indentLines n fresh (c :: cs) = c :: indentLines n true cs := by
            rw [indentLines, if_pos hbreak]
          rw [hline, hline, hline, ih]
      | false =>
          have hline (n : Nat) (cs : List Char) : indentLines n fresh (c :: cs) =
              (if fresh then spaces n else []) ++ c :: indentLines n false cs := by
            simp [indentLines, hbreak, spaces]
          rw [hline, hline, ← ih]
          cases fresh with
          | true => exact indentLines_spaces hbreak
          | false => exact hline k _

/-- Indentation stands in front of characters, so the last one stays. -/
theorem getLast?_indentLines : (indentLines k fresh cs).getLast? = cs.getLast? := by
  induction cs generalizing fresh with
  | nil => rfl
  | cons c cs ih =>
      rw [indentLines]
      split
      · rw [List.getLast?_cons, List.getLast?_cons, ih]
      · rw [List.getLast?_append, List.getLast?_cons, List.getLast?_cons, ih]
        rfl

/-- A literal text ends as its content does, or with the line end of the header if there is no
content. -/
theorem getLast?_literalText (header cs : List Char) :
    (header ++ '\n' :: indentLines k true cs).getLast? = some (cs.getLast?.getD '\n') := by
  rw [List.getLast?_append, List.getLast?_cons, getLast?_indentLines]
  rfl

/-- Whether a line end has to follow a text does not depend on its indentation. -/
theorem lineEnd_indentLines : lineEnd (indentLines k fresh cs) = lineEnd cs := by
  rw [lineEnd, lineEnd, getLast?_indentLines]

/-- Behind the end of a line the next one starts. -/
theorem startsLine_append_lineEnd : startsLine fresh (cs ++ lineEnd cs) = true := by
  rw [lineEnd]
  split
  · next hlast =>
    rw [List.append_nil, startsLine]
    cases hcs : cs.getLast? with
    | none => simp [hcs] at hlast
    | some c => simpa [hcs] using hlast
  · rw [startsLine, List.getLast?_concat]
    rfl

/-- A line end is not indented. -/
theorem indentLines_lineEnd : indentLines k fresh (lineEnd cs) = lineEnd cs := by
  rw [lineEnd]
  split <;> rfl

/-! ### Scalars -/

/-- Doubling single quotes makes no line breaks. -/
theorem isBreak_of_mem_doubleSingleQuotes (h : ∀ c ∈ cs, isBreak c = false) :
    ∀ c ∈ doubleSingleQuotes cs, isBreak c = false := by
  intro c hc
  obtain ⟨d, hd, hc⟩ := List.mem_flatMap.mp hc
  split at hc
  · rw [(by simpa using hc : c = '\'')]
    decide
  · rw [List.mem_singleton.mp hc]
    exact h d hd

/-- Between double quotes line breaks are escaped. -/
theorem isBreak_of_mem_escaped (cs : List Char) :
    ∀ c ∈ cs.flatMap doubleQuotedChar, isBreak c = false := by
  intro c hc
  obtain ⟨d, -, hc⟩ := List.mem_flatMap.mp hc
  exact (escaped d).isBreak c hc

/-- Doubling single quotes keeps the last character. -/
theorem getLast?_doubleSingleQuotes : (doubleSingleQuotes cs).getLast? = cs.getLast? := by
  induction cs with
  | nil => rfl
  | cons c cs ih =>
      rw [doubleSingleQuotes_cons, List.getLast?_append, ih, List.getLast?_cons]
      cases cs.getLast? with
      | some d => rfl
      | none =>
          split
          · next hquote => rw [hquote]; rfl
          · rfl

/-- The test for line breaks, as a statement about each character. -/
theorem forall_notBreak_of_all (h : cs.all (!isBreak ·) = true) : ∀ c ∈ cs, isBreak c = false := by
  simpa using h

/-- The header of a literal text stands on one line. -/
theorem isBreak_of_mem_literalHeader (cs : List Char) :
    ∀ c ∈ literalHeader cs, isBreak c = false := by
  have hmarks : ∀ c ∈ ['|', '2', '-', '+'], isBreak c = false := forall_notBreak_of_all (by decide)
  intro c hc
  refine hmarks c ?_
  unfold literalHeader at hc
  grind

/-- **A string further to the right**: its lines are indented further. -/
theorem stringText_add (n k : Nat) (s : String) :
    stringText (n + k) s = indentLines k false (stringText n s) := by
  have hstyled := styled s
  unfold stringText
  dsimp only
  generalize styleOf s = style at hstyled
  cases hstyled with
  | plain _ _ hallows => exact (indentLines_eq_self (isBreak_of_allowsPlain hallows)).symm
  | single _ _ =>
      have hquote {cs : List Char} : indentLines k false ('\'' :: cs) =
          '\'' :: indentLines k false cs := rfl
      have hlast : startsLine false (indentLines n false (doubleSingleQuotes s.toList)) =
          -- the closing quote stands on a line of its own if the text ends with a line break
          s.toList.getLast?.any isBreak := by
        rw [startsLine, getLast?_indentLines, getLast?_doubleSingleQuotes]
        cases s.toList.getLast? <;> rfl
      dsimp only
      rw [hquote, List.append_assoc, List.append_assoc, indentLines_append,
        indentLines_indentLines, hlast]
      cases s.toList.getLast?.any isBreak with
      | true =>
          have hclose : indentLines k true (spaces n ++ ['\'']) = spaces (n + k) ++ ['\''] :=
            indentLines_spaces (by decide)
          rw [if_pos rfl, if_pos rfl]
          exact congrArg (fun cs => '\'' :: (_ ++ cs)) hclose.symm
      | false => rfl
  | double =>
      refine (indentLines_eq_self ?_).symm
      simp only [List.forall_mem_cons, List.forall_mem_append]
      exact ⟨by decide, isBreak_of_mem_escaped _, by decide, nofun⟩
  | literal _ _ =>
      dsimp only
      rw [indentLines_line (isBreak_of_mem_literalHeader _) (List.cons_ne_nil _ _)]
      change _ = literalHeader s.toList ++ '\n' :: indentLines k true (indentLines n true s.toList)
      rw [indentLines_indentLines]

/-- A string without line breaks is written on one line. -/
theorem isBreak_of_mem_stringText {s : String} (hs : ∀ c ∈ s.toList, isBreak c = false) (n : Nat) :
    ∀ c ∈ stringText n s, isBreak c = false := by
  have hstyled := styled s
  unfold stringText
  dsimp only
  generalize styleOf s = style at hstyled
  cases hstyled with
  | plain => exact hs
  | single =>
      have hclose : s.toList.getLast?.any isBreak = false := by
        cases hlast : s.toList.getLast? with
        | none => rfl
        | some c => exact hs c (List.mem_of_getLast? hlast)
      have hquotes := isBreak_of_mem_doubleSingleQuotes hs
      dsimp only
      rw [indentLines_eq_self hquotes, hclose, if_neg Bool.false_ne_true]
      simp only [List.forall_mem_cons, List.forall_mem_append]
      exact ⟨by decide, ⟨hquotes, nofun⟩, by decide, nofun⟩
  | double =>
      simp only [List.forall_mem_cons, List.forall_mem_append]
      exact ⟨by decide, isBreak_of_mem_escaped _, by decide, nofun⟩
  | literal hlines => exact absurd (hs _ hlines) (by decide)

/-! ### Values -/

/-- A text that starts on the line where it stands, and not with a line break. -/
def StartsOnLine (cs : List Char) : Prop :=
  ∃ c rest, cs = c :: rest ∧ isBreak c = false

/-- Lines in a column further to the right. -/
theorem joinAt_add (n k : Nat) {lines : List (List Char)}
    (h : ∀ line ∈ lines, StartsOnLine line) :
    joinAt (n + k) (lines.map (indentLines k false)) = indentLines k false (joinAt n lines) := by
  induction lines with
  | nil => rfl
  | cons line lines ih =>
      obtain ⟨-, hlines⟩ := List.forall_mem_cons.mp h
      cases lines with
      | nil => rfl
      | cons next lines =>
          obtain ⟨c, rest, hnext, hbreak⟩ := (List.forall_mem_cons.mp hlines).1
          -- the next line starts with a character that is moved
          have hjoin : ∃ rest, joinAt n (next :: lines) = c :: rest := by
            rw [hnext]
            cases lines <;> exact ⟨_, rfl⟩
          obtain ⟨rest, hjoin⟩ := hjoin
          have hcons (n : Nat) (line : List Char) (lines : List (List Char)) :
              joinAt n (line :: next :: lines) =
                (line ++ lineEnd line) ++ (spaces n ++ joinAt n (next :: lines)) := by
            simp [joinAt]
          have hnextLine : indentLines k true (spaces n ++ joinAt n (next :: lines)) =
              spaces (n + k) ++ joinAt (n + k) ((next :: lines).map (indentLines k false)) := by
            rw [ih hlines, hjoin, indentLines_spaces hbreak, indentLines, if_neg (by simp [hbreak])]
            rfl
          have hfirst : indentLines k false (line ++ lineEnd line) =
              indentLines k false line ++ lineEnd (indentLines k false line) := by
            rw [indentLines_append, indentLines_lineEnd, lineEnd_indentLines]
          rw [hcons, indentLines_append, startsLine_append_lineEnd, hnextLine, hfirst]
          simp [joinAt]

/-- What stands in front of a collection, in a column further to the right. -/
theorem blockGap_add {opening : Opening} (hopening : opening ≠ .document) (n k : Nat)
    (h : StartsOnLine cs) :
    blockGap opening false (n + k) ++ indentLines k false cs =
      indentLines k false (blockGap opening false n ++ cs) := by
  obtain ⟨c, rest, rfl, hbreak⟩ := h
  have hline : indentLines k false (c :: rest) = c :: indentLines k false rest := by
    simp [indentLines, hbreak]
  have hnext : indentLines k false ('\n' :: (spaces n ++ c :: rest)) =
      '\n' :: (spaces (n + k) ++ c :: indentLines k false rest) := by
    rw [← indentLines_spaces hbreak]
    rfl
  cases opening with
  | document => exact absurd rfl hopening
  | item => rfl
  | explicit => rfl
  | entry => exact (hline.symm ▸ hnext.symm)

/-- The column of the items moves with the column of the collection, except in front of a document.
-/
theorem itemColumn_add {opening : Opening} (hopening : opening ≠ .document) (column k : Nat) :
    itemColumn opening false (column + k) = itemColumn opening false column + k := by
  cases opening with
  | document => exact absurd rfl hopening
  | _ => simp [itemColumn, innerColumn]; try omega

/-- A key in front of a colon stands on one line, whatever its column. -/
theorem exists_printNode_of_isShortKey {key : Value} (huntagged : key.isUntagged = true)
    (h : isShortKey 0 key = true) : ∃ w, (∀ c ∈ w, isBreak c = false) ∧
      ∀ column, printNode .entry false column key = some (' ' :: w) := by
  -- what stands on one line is written the same at every column
  cases key with
  | null => exact ⟨"null".toList, forall_notBreak_of_all (by decide), fun _ => rfl⟩
  | bool b =>
      have hb : ∀ c ∈ (toString b).toList, isBreak c = false := by
        cases b <;> exact forall_notBreak_of_all (by decide)
      exact ⟨(toString b).toList, hb, fun _ => rfl⟩
  | number n => exact ⟨n.text.toList, isBreak_of_allowsPlain (allowsPlain_text n).2, fun _ => rfl⟩
  | string s =>
      have hs : ∀ c ∈ s.toList, isBreak c = false := by
        rw [isShortKey, Bool.and_eq_true] at h
        simpa using h.1
      have hline := isBreak_of_mem_stringText hs 0
      refine ⟨stringText 0 s, hline, fun column => ?_⟩
      have htext := stringText_add 0 (blockColumn .entry column) s
      rw [Nat.zero_add, indentLines_eq_self hline] at htext
      rw [printNode, htext]
      rfl
  | sequence items =>
      cases items with
      | nil => exact ⟨['[', ']'], forall_notBreak_of_all (by decide), fun _ => rfl⟩
      | cons => cases h
  | mapping entries =>
      cases entries with
      | nil => exact ⟨['\x7b', '\x7d'], forall_notBreak_of_all (by decide), fun _ => rfl⟩
      | cons => cases h
  | tagged => cases huntagged

/-- Each item of a sequence starts on the line where it stands. -/
theorem startsOnLine_of_printItems {column : Nat} {items : List Value} {lines : List (List Char)}
    (h : printItems column items = some lines) : ∀ line ∈ lines, StartsOnLine line := by
  induction items generalizing lines with
  | nil =>
      obtain rfl := Option.some.inj h
      nofun
  | cons item items ih =>
      rw [printItems] at h
      obtain ⟨line, -, h⟩ := Option.bind_eq_some_iff.mp h
      obtain ⟨rest, hrest, h⟩ := Option.bind_eq_some_iff.mp h
      obtain rfl := Option.some.inj h
      exact List.forall_mem_cons.mpr ⟨⟨'-', line, rfl, by decide⟩, ih hrest⟩

/-- The text of an entry of a mapping. -/
def printEntry (column : Nat) (key value : Value) : Option (List Char) :=
  if isShortKey 0 key then
    (printNode .entry false column key).bind fun k =>
      (printNode .entry false column value).map fun v => k.drop 1 ++ ':' :: v
  else
    (printNode .explicit false column key).bind fun k =>
      (printNode .explicit false column value).map fun v =>
        ('?' :: k ++ lineEnd ('?' :: k)) ++ (spaces column ++ ':' :: v)

/-- The text of some entries is that of the first one and those of the others. -/
theorem printEntries_cons (column : Nat) (key value : Value) (entries : List (Value × Value)) :
    printEntries column ((key, value) :: entries) = (printEntry column key value).bind fun line =>
      (printEntries column entries).map (line :: ·) := by
  rw [printEntries, printEntry]
  split <;> simp only [Option.pure_def, Option.bind_eq_bind, Option.bind_some, Option.map_eq_bind,
    Option.bind_assoc, Function.comp_def, List.drop_one, List.cons_append, List.append_assoc]

/-- An entry with an untagged key starts on the line where it stands. -/
theorem startsOnLine_of_printEntry {column : Nat} {key value : Value} {line : List Char}
    (huntagged : key.isUntagged = true) (h : printEntry column key value = some line) :
    StartsOnLine line := by
  rw [printEntry] at h
  split at h
  · next hshort =>
    obtain ⟨w, hw, hkey⟩ := exists_printNode_of_isShortKey huntagged hshort
    rw [hkey, Option.bind_some] at h
    obtain ⟨v, -, rfl⟩ := Option.map_eq_some_iff.mp h
    cases w with
    | nil => exact ⟨':', v, rfl, by decide⟩
    | cons c w => exact ⟨c, w ++ ':' :: v, rfl, hw c List.mem_cons_self⟩
  · obtain ⟨k, -, h⟩ := Option.bind_eq_some_iff.mp h
    obtain ⟨v, -, rfl⟩ := Option.map_eq_some_iff.mp h
    exact ⟨'?', _, rfl, by decide⟩

/-- Each entry of a mapping with untagged keys starts on the line where it stands. -/
theorem startsOnLine_of_printEntries {column : Nat} {entries : List (Value × Value)}
    {lines : List (List Char)} (huntagged : Value.entriesUntagged entries = true)
    (h : printEntries column entries = some lines) : ∀ line ∈ lines, StartsOnLine line := by
  induction entries generalizing lines with
  | nil =>
      obtain rfl := Option.some.inj h
      nofun
  | cons e entries ih =>
      obtain ⟨key, value⟩ := e
      rw [Value.entriesUntagged, Bool.and_eq_true, Bool.and_eq_true] at huntagged
      rw [printEntries_cons] at h
      obtain ⟨line, hline, h⟩ := Option.bind_eq_some_iff.mp h
      obtain ⟨rest, hrest, rfl⟩ := Option.map_eq_some_iff.mp h
      exact List.forall_mem_cons.mpr
        ⟨startsOnLine_of_printEntry huntagged.1.1 hline, ih huntagged.2 hrest⟩

/-- An entry further to the right, if this is so of its key and its value. -/
theorem printEntry_add {column k : Nat} {key value : Value} (huntagged : key.isUntagged = true)
    (hkey : printNode .explicit false (column + k) key =
      (printNode .explicit false column key).map (indentLines k false))
    (hvalue : ∀ opening, opening ≠ .document → printNode opening false (column + k) value =
      (printNode opening false column value).map (indentLines k false)) :
    printEntry (column + k) key value =
      (printEntry column key value).map (indentLines k false) := by
  rw [printEntry, printEntry, hkey, hvalue .entry (by decide), hvalue .explicit (by decide)]
  split
  · next hshort =>
    obtain ⟨w, hw, hkey⟩ := exists_printNode_of_isShortKey huntagged hshort
    have hline : ∀ c ∈ w ++ [':'], isBreak c = false := by
      simp only [List.forall_mem_append, List.forall_mem_singleton]
      exact ⟨hw, by decide⟩
    rw [hkey, hkey]
    cases printNode .entry false column value with
    | none => rfl
    | some v =>
        have hentry : indentLines k false (w ++ [':'] ++ v) = _ := indentLines_line hline (by simp)
        simpa using hentry.symm
  · cases printNode .explicit false column key with
    | none => rfl
    | some key =>
        cases printNode .explicit false column value with
        | none => rfl
        | some v =>
            have hhead : '?' :: indentLines k false key = indentLines k false ('?' :: key) := rfl
            have hvalue : indentLines k true (spaces column ++ ':' :: v) = _ :=
              indentLines_spaces (by decide)
            simp only [Option.map_some, Option.bind_some, Option.some.injEq]
            rw [indentLines_append, startsLine_append_lineEnd, hvalue, indentLines_append,
              indentLines_lineEnd, hhead, lineEnd_indentLines]

/-- Some lines start where the first of them does. -/
theorem startsOnLine_joinAt {line : List Char} {lines : List (List Char)} (column : Nat)
    (h : StartsOnLine line) : StartsOnLine (joinAt column (line :: lines)) := by
  obtain ⟨c, rest, rfl, hbreak⟩ := h
  cases lines <;> exact ⟨c, _, rfl, hbreak⟩

/-- The lines of a collection behind its opening, in a column further to the right. -/
theorem block_add {opening : Opening} (hopening : opening ≠ .document) (n k : Nat)
    {lines : List (List Char)} (hne : lines ≠ []) (h : ∀ line ∈ lines, StartsOnLine line) :
    blockGap opening false (n + k) ++ joinAt (n + k) (lines.map (indentLines k false)) =
      indentLines k false (blockGap opening false n ++ joinAt n lines) := by
  obtain ⟨line, lines, rfl⟩ := List.exists_cons_of_ne_nil hne
  rw [joinAt_add n k h]
  exact blockGap_add hopening n k (startsOnLine_joinAt n (h line List.mem_cons_self))

/-- A sequence with items has lines. -/
theorem ne_nil_of_printItems {column : Nat} {item : Value} {items : List Value}
    {lines : List (List Char)} (h : printItems column (item :: items) = some lines) :
    lines ≠ [] := by
  rw [printItems] at h
  obtain ⟨line, -, h⟩ := Option.bind_eq_some_iff.mp h
  obtain ⟨rest, -, h⟩ := Option.bind_eq_some_iff.mp h
  exact Option.some.inj h ▸ List.cons_ne_nil _ _

/-- A mapping with entries has lines. -/
theorem ne_nil_of_printEntries {column : Nat} {entry : Value × Value}
    {entries : List (Value × Value)} {lines : List (List Char)}
    (h : printEntries column (entry :: entries) = some lines) : lines ≠ [] := by
  rw [printEntries_cons] at h
  obtain ⟨line, -, h⟩ := Option.bind_eq_some_iff.mp h
  obtain ⟨rest, -, rfl⟩ := Option.map_eq_some_iff.mp h
  exact List.cons_ne_nil _ _

/-- A scalar on one line, behind its opening. -/
theorem inlineGap_append {opening : Opening} (hopening : opening ≠ .document) :
    inlineGap opening ++ indentLines k false cs =
      indentLines k false (inlineGap opening ++ cs) := by
  cases opening with
  | document => exact absurd rfl hopening
  | _ => rfl

mutual

/-- **A value further to the right** has the same lines, which are indented further. -/
theorem printNode_add (column k : Nat) {opening : Opening} (hopening : opening ≠ .document) :
    (v : Value) → v.isUntagged = true → printNode opening false (column + k) v =
      (printNode opening false column v).map (indentLines k false)
  -- what stands on one line is not affected; collections take their lines with them
  | .null, _ => by
      rw [printNode, printNode, Option.map_some, ← inlineGap_append hopening]
      rfl
  | .bool b, _ => by
      rw [printNode, printNode, Option.map_some, ← inlineGap_append hopening]
      cases b <;> rfl
  | .number n, _ => by
      rw [printNode, printNode, Option.map_some, ← inlineGap_append hopening,
        indentLines_eq_self (isBreak_of_allowsPlain (allowsPlain_text n).2)]
  | .string s, _ => by
      have hcolumn : blockColumn opening (column + k) = blockColumn opening column + k := by
        cases opening with
        | document => exact absurd rfl hopening
        | _ => exact Nat.add_right_comm ..
      rw [printNode, printNode, Option.map_some, ← inlineGap_append hopening, hcolumn,
        stringText_add]
  | .sequence [], _ => by
      rw [printNode, printNode, Option.map_some, ← inlineGap_append hopening]
      rfl
  | .sequence (item :: items), huntagged => by
      have hitems := printItems_add (itemColumn opening false column) k (item :: items) huntagged
      rw [printNode, printNode, itemColumn_add hopening, hitems]
      cases hlines : printItems (itemColumn opening false column) (item :: items) with
      | none => rfl
      | some lines =>
          exact congrArg some (block_add hopening _ k (ne_nil_of_printItems hlines)
            (startsOnLine_of_printItems hlines))
  | .mapping [], _ => by
      rw [printNode, printNode, Option.map_some, ← inlineGap_append hopening]
      rfl
  | .mapping (entry :: entries), huntagged => by
      have hcolumn : innerColumn opening (column + k) = innerColumn opening column + k := by
        cases opening with
        | document => exact absurd rfl hopening
        | _ => exact Nat.add_right_comm ..
      have hentries := printEntries_add (innerColumn opening column) k (entry :: entries) huntagged
      rw [printNode, printNode, hcolumn, hentries]
      split
      · rfl
      cases hlines : printEntries (innerColumn opening column) (entry :: entries) with
      | none => rfl
      | some lines =>
          exact congrArg some (block_add hopening _ k (ne_nil_of_printEntries hlines)
            (startsOnLine_of_printEntries huntagged hlines))
  | .tagged _ _, huntagged => nomatch huntagged

/-- The items of a sequence further to the right have the same lines, indented further. The
induction is on the values, together with that of `printEntries_add`. -/
theorem printItems_add (column k : Nat) :
    (items : List Value) → Value.areUntagged items = true → printItems (column + k) items =
      (printItems column items).map (List.map (indentLines k false))
  | [], _ => rfl
  | item :: items, huntagged => by
      rw [Value.areUntagged, Bool.and_eq_true] at huntagged
      have hitem : printNode .item false (column + k) item = _ :=
        printNode_add column k (by decide) item huntagged.1
      have hitems := printItems_add column k items huntagged.2
      rw [printItems, printItems, hitem, hitems]
      cases printNode .item false column item <;> cases printItems column items <;> rfl

/-- The entries of a mapping further to the right have the same lines, indented further. -/
theorem printEntries_add (column k : Nat) :
    (entries : List (Value × Value)) → Value.entriesUntagged entries = true →
      printEntries (column + k) entries =
        (printEntries column entries).map (List.map (indentLines k false))
  | [], _ => rfl
  | (key, value) :: entries, huntagged => by
      rw [Value.entriesUntagged, Bool.and_eq_true, Bool.and_eq_true] at huntagged
      have hkey : printNode .explicit false (column + k) key = _ :=
        printNode_add column k (by decide) key huntagged.1.1
      have hentry := printEntry_add huntagged.1.1 hkey fun opening hopening =>
        printNode_add column k hopening value huntagged.1.2
      rw [printEntries_cons, printEntries_cons, hentry,
        printEntries_add column k entries huntagged.2]
      cases printEntry column key value <;> cases printEntries column entries <;> rfl

end

/-! ### Items -/

/-- Whether a value is a sequence or a mapping. -/
def Value.isCollection : Value → Bool
  | .sequence _ => true
  | .mapping _ => true
  | _ => false

/-- A collection as an item stands behind its dash as it stands in a document of its own, indented
by two. -/
theorem printNode_item {v : Value} (hv : v.isCollection = true) (huntagged : v.isUntagged = true) :
    printNode .item false 0 v = v.print.map fun text => ' ' :: indentLines 2 false text := by
  have hblock {lines : List (List Char)} (h : ∀ line ∈ lines, StartsOnLine line) :
      blockGap .item false 2 ++ joinAt 2 (lines.map (indentLines 2 false)) =
        ' ' :: indentLines 2 false (blockGap .document false 0 ++ joinAt 0 lines) :=
    -- the first line of a collection stands behind the dash, and the others below it
    congrArg (' ' :: ·) (joinAt_add 0 2 h)
  rw [Value.print]
  cases v with
  | sequence items =>
      cases items with
      | nil => rfl
      | cons item items =>
          have hitems := printItems_add 0 2 (item :: items) huntagged
          rw [printNode, printNode]
          change (printItems (0 + 2) (item :: items)).bind _ =
            ((printItems 0 (item :: items)).bind _).map _
          rw [hitems]
          cases hlines : printItems 0 (item :: items) with
          | none => rfl
          | some lines => exact congrArg some (hblock (startsOnLine_of_printItems hlines))
  | mapping entries =>
      cases entries with
      | nil => rfl
      | cons entry entries =>
          have hentries := printEntries_add 0 2 (entry :: entries) huntagged
          rw [printNode, printNode]
          split
          · rfl
          change (printEntries (0 + 2) (entry :: entries)).bind _ =
            ((printEntries 0 (entry :: entries)).bind _).map _
          rw [hentries]
          cases hlines : printEntries 0 (entry :: entries) with
          | none => rfl
          | some lines =>
              exact congrArg some (hblock (startsOnLine_of_printEntries huntagged hlines))
  | _ => cases hv

/-- A scalar as an item stands behind its dash as it stands in a document of its own. -/
theorem printNode_item_scalar {v : Value} (hv : v.isCollection = false)
    (huntagged : v.isUntagged = true) :
    printNode .item false 0 v = v.print.map (' ' :: ·) := by
  cases v with
  | sequence => cases hv
  | mapping => cases hv
  | tagged => cases huntagged
  | _ => rfl

/-- The text of a sequence with one item is a dash and the text of the item. -/
theorem print_singleton (v : Value) :
    (Value.sequence [v]).print = (printNode .item false 0 v).map ('-' :: ·) := by
  rw [Value.print, printNode]
  change (printItems 0 [v]).bind _ = _
  rw [printItems]
  cases printNode .item false 0 v <;> rfl

end AgentPipeline.Yaml
