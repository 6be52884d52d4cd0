import AgentPipeline.Proofs.Text.Trim
import AgentPipeline.Proofs.Yaml.Document
import AgentPipeline.Proofs.Yaml.Scalar
import AgentPipeline.Proofs.Yaml.Spelling

/-!
# Reading the entry of a text

A text on one line is written with quotes or without them. With quotes it always comes back. What
is written without quotes starts like a plain scalar and is spelled like a string; what remains is
whether the scalar ends too early. A hash behind a space and a colon in front of a space or of the
end call for quotes, but to the reader a tab is as good as a space there. So a text without quotes
comes back just if no tab stands in front of a hash or behind a colon
(`Value.ofDocument?_entry_iff`).
-/

namespace AgentPipeline.Yaml

variable {v w : String} {c : Char} {cs : List Char}

/-! ### Texts without quotes -/

/-- The indicators of the scanner are among the characters that force quotes in front. -/
theorem opensSpecial_of_mem_indicators : ∀ d ∈ Scanner.indicators, opensSpecial d = true :=
  List.all_eq_true.mp (by decide)

/-- White space of a document is white space. -/
theorem isBlank_of_isSpaceOrTab (h : isSpaceOrTab c = true) : Text.isBlank c = true := by
  simp only [isSpaceOrTab, Bool.or_eq_true, beq_iff_eq] at h
  rcases h with rfl | rfl <;> decide

namespace Unquoted

/-- A text without quotes is trimmed. -/
theorem trimmed (h : Unquoted v) : Text.Trimmed v.toList :=
  h.trim_eq ▸ Text.trimmed_trim v.toList

/-- A text without quotes starts like a plain scalar. -/
theorem startsPlain (h : Unquoted v) (hline : ∀ c ∈ v.toList, isBreak c = false) :
    Scanner.StartsPlain v.toList := by
  obtain ⟨c, cs, hv⟩ := List.exists_cons_of_ne_nil h.ne_nil
  have hhead : c ∈ v.toList.head? := by rw [hv]; rfl
  refine ⟨c, cs, hv, fun d hd => ?_, ?_⟩
  · rintro rfl
    exact Bool.false_ne_true ((h.head c hhead).symm.trans (opensSpecial_of_mem_indicators c hd))
  · have hblank : isSpaceOrTab c = false := by
      by_contra hspace
      rw [Bool.not_eq_false] at hspace
      exact Bool.false_ne_true
        ((h.trimmed.1 c hhead).symm.trans (isBlank_of_isSpaceOrTab hspace))
    exact Bool.or_eq_false_iff.mpr ⟨hblank, hline c (List.mem_of_mem_head? hhead)⟩

/-- There is no white space at the end of a text without quotes. -/
theorem rdropWhile_eq (h : Unquoted v) : v.toList.rdropWhile isSpaceOrTab = v.toList := by
  rw [List.rdropWhile_eq_self_iff]
  intro hne hspace
  have hlast := h.trimmed.2 _ (List.getLast?_eq_some_getLast hne)
  exact Bool.false_ne_true (hlast.symm.trans (isBlank_of_isSpaceOrTab hspace))

/-- **A text without quotes is one plain scalar** just if no tab stands in front of a hash or behind
a colon. -/
theorem splitPlain_snd_eq_nil_iff (h : Unquoted v)
    (hline : ∀ c ∈ v.toList, isAllowed c = true ∧ isBreak c = false) :
    (splitPlain false v.toList).2 = [] ↔
      hasNeighbours ':' '\t' v.toList = false ∧ hasNeighbours '\t' '#' v.toList = false := by
  have hcolon : hasPair (· == ':') (· == ' ') v.toList = false := h.noColon
  have hhash : hasPair (· == ' ') (· == '#') v.toList = false := h.noHash
  rw [Yaml.splitPlain_snd_eq_nil_iff false hline, hasPair_blank_left, hasPair_blank_right, hcolon,
    hhash, Bool.false_or, Bool.false_or]
  simp [h.last, hasNeighbours, and_comm]

end Unquoted

/-- A plain scalar that denotes a string denotes itself. -/
theorem Plain.eq_of_toValue? (h : Plain.toValue? w = some (.string v)) : w = v := by
  unfold Plain.toValue? at h
  split at h
  all_goals simp_all

/-! ### Documents -/

section Documents

variable {key : String}

/-- The entry of a text on one line is the key, a colon and the scalar. -/
theorem toList_entry (h : '\n' ∉ v.toList) :
    (entry 0 key v).toList = key.toList ++ ':' :: ' ' :: (scalar v).toList := by
  simp [entry, literalBlock, h, pad, spaces]

/-- Doubling quotes adds nothing that is not kept. -/
theorem isKept_of_mem_doubleSingleQuotes (hcs : ∀ c ∈ cs, isKept c = true) :
    ∀ c ∈ doubleSingleQuotes cs, isKept c = true := by
  intro c hc
  obtain ⟨d, hd, hc⟩ := List.mem_flatMap.mp hc
  split at hc
  · next heq =>
    have hquote : c = '\'' := by simpa using hc
    rw [hquote]
    decide
  · rw [List.mem_singleton.mp hc]
    exact hcs d hd

/-- **With quotes** every text on one line comes back. -/
theorem Value.ofDocument?_entry_of_needsQuotes (hkey : isStringWord key = true)
    (hline : ∀ c ∈ v.toList, isAllowed c = true ∧ isBreak c = false) (h : needsQuotes v = true) :
    Value.ofDocument? (entry 0 key v) = some (.mapping [(.string key, .string v)]) := by
  obtain ⟨hword, hlength, -⟩ := isStringWord_iff.mp hkey
  have hbreaks : ∀ c ∈ v.toList, isBreak c = false := fun c hc => (hline c hc).2
  have hkept : ∀ c ∈ v.toList, isKept c = true := fun c hc =>
    isKept_of_isAllowed (hline c hc).1 (hline c hc).2
  have hnotMem : '\n' ∉ v.toList := fun hc => absurd (hbreaks _ hc) (by decide)
  have htext : (entry 0 key v).toList =
      key.toList ++ ':' :: ' ' :: '\'' :: (doubleSingleQuotes v.toList ++ ['\'']) := by
    rw [toList_entry hnotMem, scalar, if_pos h]
    simp
  have hrest : ∀ c ∈ ' ' :: '\'' :: (doubleSingleQuotes v.toList ++ ['\'']), isKept c = true := by
    simp only [List.forall_mem_cons, List.forall_mem_append]
    exact ⟨by decide, by decide, isKept_of_mem_doubleSingleQuotes hkept, by decide, nofun⟩
  rw [Value.ofDocument?_scalar hkey htext hrest (Scanner.tokens?_quoted hword hlength hbreaks),
    String.ofList_toList]
  rfl

/-- What is left of a line behind a plain scalar is missing from its text. -/
theorem splitPlain_snd_eq_nil_of_plainText (h : plainText v.toList = v) :
    (splitPlain false v.toList).2 = [] := by
  have hle := (List.rdropWhile_prefix isSpaceOrTab (splitPlain false v.toList).1).length_le
  have hlengths := congrArg List.length (splitPlain_append false v.toList)
  have htext := congrArg (fun s : String => s.toList.length) h
  simp only [plainText, String.toList_ofList] at htext
  rw [List.length_append] at hlengths
  exact List.eq_nil_of_length_eq_zero (by omega)

/-- **Without quotes** a text comes back if it is one plain scalar. Otherwise the scalar ends too
early: at a hash less than the text is read, and at a colon nothing is. -/
theorem Value.ofDocument?_entry_iff_of_unquoted (hkey : isStringWord key = true)
    (hline : ∀ c ∈ v.toList, isAllowed c = true ∧ isBreak c = false) (h : needsQuotes v = false) :
    Value.ofDocument? (entry 0 key v) = some (.mapping [(.string key, .string v)]) ↔
      (splitPlain false v.toList).2 = [] := by
  have hv := unquoted_of_needsQuotes h
  obtain ⟨hword, hlength, -⟩ := isStringWord_iff.mp hkey
  have hbreaks : ∀ c ∈ v.toList, isBreak c = false := fun c hc => (hline c hc).2
  have htext : (entry 0 key v).toList = key.toList ++ ':' :: ' ' :: v.toList := by
    rw [toList_entry hv.noBreak, scalar, if_neg (by simp [h])]
  have hrest : ∀ c ∈ ' ' :: v.toList, isKept c = true := by
    rw [List.forall_mem_cons]
    exact ⟨by decide, fun c hc => isKept_of_isAllowed (hline c hc).1 (hline c hc).2⟩
  have htokens := Scanner.tokens?_plain hword hlength (hv.startsPlain hbreaks) hbreaks
  split at htokens
  · next hcolon =>
    have hnone := Value.ofDocument?_of_tokens?_eq_none (isKept_single hkey htext hrest)
      (htext ▸ htokens)
    rw [hnone]
    refine iff_of_false nofun fun hnil => ?_
    rw [hnil] at hcolon
    cases hcolon
  · rw [Value.ofDocument?_scalar hkey htext hrest htokens]
    constructor
    · intro hread
      obtain ⟨x, hspelled, heq⟩ := Option.map_eq_some_iff.mp hread
      have hx : x = .string v := by simpa using heq
      exact splitPlain_snd_eq_nil_of_plainText (Plain.eq_of_toValue? (hx ▸ hspelled))
    · intro hnil
      have happend := splitPlain_append false v.toList
      rw [hnil, List.append_nil] at happend
      have hspelled : Reader.spelled .plain v = some (.string v) := hv.toValue?_eq
      rw [plainText, happend, hv.rdropWhile_eq, String.ofList_toList, hspelled]
      rfl

end Documents

/-- **A text on one line comes back from its entry** just if it is written with quotes or holds no
tab in front of a hash or behind a colon. -/
theorem Value.ofDocument?_entry_iff {key v : String} (hkey : isStringWord key = true)
    (hline : ∀ c ∈ v.toList, isAllowed c = true ∧ isBreak c = false) :
    Value.ofDocument? (entry 0 key v) = some (.mapping [(.string key, .string v)]) ↔
      needsQuotes v = true ∨
        (hasNeighbours ':' '\t' v.toList = false ∧ hasNeighbours '\t' '#' v.toList = false) := by
  cases h : needsQuotes v with
  | true => simp [Value.ofDocument?_entry_of_needsQuotes hkey hline h]
  | false =>
      rw [Value.ofDocument?_entry_iff_of_unquoted hkey hline h,
        (unquoted_of_needsQuotes h).splitPlain_snd_eq_nil_iff hline]
      simp

/-- Allowed characters that break no line. -/
theorem forall_onLine_of_all (h : cs.all (fun c => isAllowed c && !isBreak c) = true) :
    ∀ c ∈ cs, isAllowed c = true ∧ isBreak c = false := by
  simpa using h

/-- A text that starts like an item is quoted, and so its tab in front of a hash does no harm. -/
theorem Value.ofDocument?_entry_item :
    let v := "- it's\t#1"
    isStringWord "v" = true ∧ (∀ c ∈ v.toList, isAllowed c = true ∧ isBreak c = false) ∧
      entry 0 "v" v = "v: '- it''s\t#1'" ∧
      (Value.ofDocument? (entry 0 "v" v) = some (.mapping [(.string "v", .string v)]) ↔
        needsQuotes v = true ∨
          (hasNeighbours ':' '\t' v.toList = false ∧ hasNeighbours '\t' '#' v.toList = false)) := by
  intro v
  have hkey : isStringWord "v" = true := by decide
  have hline : ∀ c ∈ v.toList, isAllowed c = true ∧ isBreak c = false :=
    forall_onLine_of_all (by decide)
  exact ⟨hkey, hline, by decide +kernel, Value.ofDocument?_entry_iff hkey hline⟩

/-- Behind a tab a hash starts a comment, and what is written without quotes is cut off there. -/
theorem Value.ofDocument?_entry_ne :
    let v := "a\t#b"
    (∀ c ∈ v.toList, isAllowed c = true ∧ isBreak c = false) ∧ entry 0 "v" v = "v: a\t#b" ∧
      Value.ofDocument? (entry 0 "v" v) = some (.mapping [(.string "v", .string "a")]) ∧
      Value.ofDocument? (entry 0 "v" v) ≠ some (.mapping [(.string "v", .string v)]) := by
  intro v
  have hentry : entry 0 "v" v = "v: a\t#b" := by decide +kernel
  have hread : Value.ofDocument? "v: a\t#b" = some (.mapping [(.string "v", .string "a")]) := by
    have htokens : Scanner.tokens? ("v".toList ++ ':' :: " a\t#b".toList) =
        some (.blockMappingStart :: Scanner.keyTokens "v" ++
          ([.scalar .plain "a"] ++ [YamlToken.blockEnd])) := by
      decide +kernel
    have hspelled : Reader.spelled .plain "a" = some (.string "a") :=
      Plain.toValue?_word (s := "a") (by decide) (by decide) (by decide)
    rw [Value.ofDocument?_scalar (by decide) rfl (List.all_eq_true.mp (by decide)) htokens,
      hspelled]
    rfl
  refine ⟨forall_onLine_of_all (by decide), hentry, hentry ▸ hread, ?_⟩
  rw [hentry, hread]
  simp [v]

end AgentPipeline.Yaml
