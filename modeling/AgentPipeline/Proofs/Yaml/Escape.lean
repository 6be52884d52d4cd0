import AgentPipeline.Proofs.Yaml.Scalar
import Mathlib.Algebra.Group.Nat.Defs

/-!
# Reading between double quotes

Between double quotes every text can be written, on one line: what does not stand for itself is
written as an escape, a letter or hexadecimal digits behind a backslash. Each character comes back
(`exists_readQuoted_char`), and so does the text (`exists_readQuoted_double`).
-/

namespace AgentPipeline.Yaml

variable {c d : Char} {cs ds rest text : List Char} {gap : Gap} {p : Position} {n width : Nat}

/-! ### Hexadecimal digits -/

/-- The value of a hexadecimal digit is the number that it was written for. -/
theorem digitValue_toUpper_digitChar (h : n < 16) : digitValue n.digitChar.toUpper = n := by
  have hall : ∀ n < 16, digitValue (Nat.digitChar n).toUpper = n := by decide
  exact hall n h

/-- The number that some hexadecimal digits denote behind others. -/
def hexFold (value : Nat) (ds : List Char) : Nat :=
  ds.foldl (fun value d => value * 16 + digitValue d) value

/-- The digits of a number are read as the number. -/
theorem hexFold_toDigits (n : Nat) : hexFold 0 ((Nat.toDigits 16 n).map Char.toUpper) = n := by
  induction n using Nat.strongRecOn with
  | ind n ih =>
      rw [Nat.toDigits_eq_if (by decide)]
      split
      · next hlt => simp [hexFold, digitValue_toUpper_digitChar hlt]
      · next hge =>
        have hrest := ih (n / 16) (by omega)
        have hdigit : n % 16 < 16 := Nat.mod_lt n (by decide)
        rw [hexFold] at hrest
        rw [hexFold, List.map_append, List.foldl_append, hrest]
        simp only [List.map_cons, List.map_nil, List.foldl_cons, List.foldl_nil,
          digitValue_toUpper_digitChar hdigit]
        omega

/-- The digits of a number are hexadecimal digits. -/
theorem exists_of_mem_toDigits (h : c ∈ Nat.toDigits 16 n) : ∃ m < 16, c = m.digitChar := by
  induction n using Nat.strongRecOn with
  | ind n ih =>
      rw [Nat.toDigits_eq_if (by decide)] at h
      split at h
      · next hlt => exact ⟨n, hlt, List.mem_singleton.mp h⟩
      · next hge =>
        rcases List.mem_append.mp h with h | h
        · exact ih (n / 16) (by omega) h
        · exact ⟨n % 16, Nat.mod_lt n (by decide), List.mem_singleton.mp h⟩

/-- A number that has no more digits than there is room for is written with its digits. -/
theorem hexPadded_spec (h : n < 16 ^ width) (hwidth : 0 < width) :
    (hexPadded width n).length = width ∧ (∀ c ∈ hexPadded width n, digitValue c < 16) ∧
      hexFold 0 (hexPadded width n) = n := by
  have hlength := (Nat.length_toDigits_le_iff (b := 16) (n := n) (by decide) hwidth).mpr h
  refine ⟨?_, ?_, ?_⟩
  · simp only [hexPadded, List.length_append, List.length_replicate, List.length_map]
    omega
  · simp only [hexPadded, List.forall_mem_append]
    refine ⟨fun c hc => ?_, fun c hc => ?_⟩
    · rw [List.eq_of_mem_replicate hc]
      decide
    · obtain ⟨d, hd, rfl⟩ := List.mem_map.mp hc
      obtain ⟨m, hm, rfl⟩ := exists_of_mem_toDigits hd
      rwa [digitValue_toUpper_digitChar hm]
  · have hzeros (m : Nat) : (List.replicate m '0').foldl
        (fun value d => value * 16 + digitValue d) 0 = 0 := by
      induction m with
      | zero => rfl
      | succ m ih => exact ih
    have hdigits := hexFold_toDigits n
    rw [hexFold] at hdigits
    simp only [hexFold, hexPadded, List.foldl_append, hzeros, hdigits]

/-- A character is found by its code. -/
theorem charOfCode?_toNat (c : Char) : charOfCode? c.toNat = some c := by
  have hvalid : c.toNat < 0xD800 ∨ (0xDFFF < c.toNat ∧ c.toNat < 0x110000) := c.valid
  rw [charOfCode?, if_pos (by omega), Char.ofNat_toNat]

/-- Hexadecimal digits give the character with their number. -/
theorem exists_readQuoted_hex (single : Bool) (text : List Char) (p : Position) (value k : Nat)
    (hds : ∀ d ∈ ds, digitValue d < 16) (hlength : ds.length = k + 1)
    (hchar : charOfCode? (hexFold value ds) = some c) :
    ∃ p', p'.column ≠ 0 ∧ ∀ rest, readQuoted single (.hex k value) .none text p (ds ++ rest) =
      readQuoted single .none .none (c :: text) p' rest := by
  induction ds generalizing p value k with
  | nil => cases hlength
  | cons d ds ih =>
      rw [List.forall_mem_cons] at hds
      cases k with
      | zero =>
          obtain rfl : ds = [] := List.eq_nil_of_length_eq_zero (Nat.succ.inj hlength)
          have hchar : charOfCode? (value * 16 + digitValue d) = some c := hchar
          refine ⟨p.next d, Nat.succ_ne_zero _, fun rest => ?_⟩
          rw [List.cons_append, readQuoted, if_pos hds.1]
          simp [hchar]
      | succ k =>
          obtain ⟨p', hp', hread⟩ := ih (p.next d) (value * 16 + digitValue d) k hds.2
            (Nat.succ.inj hlength) hchar
          refine ⟨p', hp', fun rest => ?_⟩
          rw [List.cons_append, readQuoted, if_pos hds.1, ← hread]

/-! ### Characters -/

/-- The letters of escapes are those of the table. -/
theorem mem_of_escapeLetter (h : escapeLetter c = some d) : (c, d) ∈ escapeTable := by
  obtain ⟨front, back, htable, -⟩ := List.lookup_eq_some_iff.mp h
  rw [htable]
  exact List.mem_append_right _ List.mem_cons_self

/-- A letter behind a backslash stands for its character. -/
theorem unescape_of_escapeLetter (h : escapeLetter c = some d) : unescape d = some (.inl c) := by
  have hall : ∀ e ∈ escapeTable, unescape e.2 = some (.inl e.1) := by decide
  exact hall _ (mem_of_escapeLetter h)

/-- The letter of an escape breaks no line. -/
theorem isBreak_of_escapeLetter (h : escapeLetter c = some d) : isBreak d = false := by
  have hall : ∀ e ∈ escapeTable, isBreak e.2 = false := by decide
  exact hall _ (mem_of_escapeLetter h)

/-- A character is written as it stands, as a letter behind a backslash, or with its number. -/
inductive Escaped (c : Char) : List Char → Prop
  | raw (hprintable : isPrintable c = true) (hbreak : isBreak c = false) (hquote : c ≠ '"')
      (hslash : c ≠ '\\') : Escaped c [c]
  | letter {d : Char} (hletter : escapeLetter c = some d) : Escaped c ['\\', d]
  | hex {mark : Char} {k : Nat} (hmark : unescape mark = some (.inr k))
      (hbreak : isBreak mark = false) (hlt : c.toNat < 16 ^ (k + 1)) :
      Escaped c ('\\' :: mark :: hexPadded (k + 1) c.toNat)

/-- A character is written as it is, as a letter or as digits. -/
theorem escaped (c : Char) : Escaped c (doubleQuotedChar c) := by
  rw [doubleQuotedChar]
  split
  · next h =>
    simp only [Bool.not_eq_true'] at h
    exact .raw h.1 h.2.1 h.2.2.1 h.2.2.2
  · split
    · next l hl => exact .letter hl
    · dsimp only
      split
      · change Escaped c ('\\' :: 'x' :: hexPadded (1 + 1) c.toNat)
        exact .hex rfl (by decide) (by omega)
      split
      · change Escaped c ('\\' :: 'u' :: hexPadded (3 + 1) c.toNat)
        exact .hex rfl (by decide) (by omega)
      · have hvalid : c.toNat < 0xD800 ∨ (0xDFFF < c.toNat ∧ c.toNat < 0x110000) := c.valid
        change Escaped c ('\\' :: 'U' :: hexPadded (7 + 1) c.toNat)
        exact .hex rfl (by decide) (by omega)

/-- A hexadecimal digit breaks no line. -/
theorem isBreak_of_digitValue (h : digitValue c < 16) : isBreak c = false := by
  have hspaces : whiteSpace.all (16 ≤ digitValue ·) = true := by decide
  by_contra hbreak
  rw [Bool.not_eq_false] at hbreak
  have hmem : c ∈ whiteSpace := isBlankOrBreak_iff_mem.mp (by simp [isBlankOrBreak, hbreak])
  have hle := List.all_eq_true.mp hspaces c hmem
  exact absurd h (by simpa using hle)

/-- Between double quotes everything stands on one line. -/
theorem Escaped.isBreak (h : Escaped c cs) : ∀ d ∈ cs, isBreak d = false := by
  cases h with
  | raw _ hbreak => exact List.forall_mem_singleton.mpr hbreak
  | letter hletter =>
      simp only [List.forall_mem_cons]
      exact ⟨by decide, isBreak_of_escapeLetter hletter, nofun⟩
  | hex _ hbreak hlt =>
      simp only [List.forall_mem_cons]
      exact ⟨by decide, hbreak, fun d hd =>
        isBreak_of_digitValue ((hexPadded_spec hlt (Nat.succ_pos _)).2.1 d hd)⟩

/-- **Each character comes back**, whatever white space stands in front of it. -/
theorem exists_readQuoted_char (hcs : Escaped c cs) (text : List Char)
    (hgap : gap.isBroken = false) (hcolumn : p.column ≠ 0) :
    ∃ gap' text' p', (∀ rest, readQuoted false .none gap text p (cs ++ rest) =
        readQuoted false .none gap' text' p' rest) ∧
      gap'.isBroken = false ∧ p'.column ≠ 0 ∧ gap'.text ++ text' = c :: (gap.text ++ text) := by
  -- a backslash is read behind the white space
  have hslash (rest : List Char) : readQuoted false .none gap text p ('\\' :: rest) =
      readQuoted false .backslash .none (gap.text ++ text) (p.next '\\') rest := by
    simp [readQuoted, Yaml.isBreak, isSpaceOrTab, hcolumn]
  cases hcs with
  | raw hprintable hbreak hquote hslash =>
      cases hblank : isSpaceOrTab c with
      | true =>
          refine ⟨gap.addBlank c, text, p.next c, fun rest => readQuoted_blank hblank,
            Gap.isBroken_addBlank hgap, Nat.succ_ne_zero _, ?_⟩
          rw [Gap.text_addBlank hgap]
          rfl
      | false =>
          refine ⟨.none, c :: (gap.text ++ text), p.next c, fun rest => ?_, rfl,
            Nat.succ_ne_zero _, rfl⟩
          simp [readQuoted, hbreak, hblank, hcolumn, hquote, hslash]
  | @letter d hletter =>
      refine ⟨.none, c :: (gap.text ++ text), (p.next '\\').next d, fun rest => ?_, rfl,
        Nat.succ_ne_zero _, rfl⟩
      rw [List.cons_append, hslash, List.cons_append, readQuoted,
        if_neg (by simp [isBreak_of_escapeLetter hletter]), unescape_of_escapeLetter hletter]
      rfl
  | @hex mark k hmark hbreak hlt =>
      obtain ⟨hlength, hdigits, hvalue⟩ := hexPadded_spec hlt (Nat.succ_pos k)
      obtain ⟨p', hp', hread⟩ := exists_readQuoted_hex false (gap.text ++ text)
        ((p.next '\\').next mark) 0 k hdigits hlength (hvalue.symm ▸ charOfCode?_toNat c)
      refine ⟨.none, c :: (gap.text ++ text), p', fun rest => ?_, rfl, hp', rfl⟩
      rw [List.cons_append, hslash, List.cons_append, readQuoted, if_neg (by simp [hbreak]), hmark]
      exact hread rest

/-- **Between double quotes** every text is read as it is, once its characters are escaped. -/
theorem exists_readQuoted_double (cs text rest : List Char) (hgap : gap.isBroken = false)
    (hcolumn : p.column ≠ 0) :
    ∃ p', readQuoted false .none gap text p (cs.flatMap doubleQuotedChar ++ '"' :: rest) =
      some ⟨String.ofList ((gap.text ++ text).reverse ++ cs), false, p', rest⟩ := by
  induction cs generalizing gap text p with
  | nil =>
      refine ⟨p.next '"', ?_⟩
      simp [readQuoted, isBreak, isSpaceOrTab, hcolumn]
  | cons c cs ih =>
      obtain ⟨gap', text', p', hread, hgap', hp', htext⟩ :=
        exists_readQuoted_char (escaped c) text hgap hcolumn
      obtain ⟨q, hq⟩ := ih text' hgap' hp'
      refine ⟨q, ?_⟩
      rw [List.flatMap_cons, List.append_assoc, hread, hq, htext]
      simp

end AgentPipeline.Yaml
