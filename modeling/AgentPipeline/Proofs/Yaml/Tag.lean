import AgentPipeline.Proofs.Yaml.Word
import AgentPipeline.Yaml.Token
import Mathlib.Data.List.TakeWhile

/-!
# Reading tags

A tag is read from its own characters: of what follows it only the first character counts, and only
in that it does not belong to the tag (`Scanner.exists_isTagText`). A tag has one of three forms: it
stands in angle brackets, behind a handle between two exclamation marks, or behind a single one.
-/

namespace AgentPipeline.Yaml.Scanner

variable {c : Char} {cs rest : List Char}

/-- A stretch is taken up to where it ends. -/
theorem takeWhile_append_of_head? {f : Char → Bool} {w : List Char} (hw : ∀ c ∈ w, f c = true)
    (hrest : ∀ c ∈ rest.head?, f c = false) : (w ++ rest).takeWhile f = w := by
  rw [List.takeWhile_append_of_pos hw]
  cases rest with
  | nil => simp
  | cons c rest => simp [hrest c rfl]

/-- What stands behind the stretch is left. -/
theorem dropWhile_append_of_head? {f : Char → Bool} {w : List Char} (hw : ∀ c ∈ w, f c = true)
    (hrest : ∀ c ∈ rest.head?, f c = false) : (w ++ rest).dropWhile f = rest := by
  rw [List.dropWhile_append_of_pos hw]
  cases rest with
  | nil => simp
  | cons c rest => simp [hrest c rfl]

/-- The characters of handles break no line. -/
theorem isBreak_of_isNameChar (h : isNameChar c = true) : isBreak c = false := by
  have hblank := isBlankOrBreak_of_isNameChar h
  simp only [isBlankOrBreak, Bool.or_eq_false_iff] at hblank
  exact hblank.2

/-- The characters of tags break no line. -/
theorem isBreak_of_isUriChar {verbatim : Bool} (h : isUriChar verbatim c = true) :
    isBreak c = false := by
  cases hbreak : isBreak c with
  | false => rfl
  | true =>
      have hspace : whiteSpace.all (!isUriChar verbatim ·) = true := by cases verbatim <;> decide
      have hmem : c ∈ whiteSpace := isBlankOrBreak_iff_mem.mp (by simp [isBlankOrBreak, hbreak])
      simpa [h] using List.all_eq_true.mp hspace c hmem

/-- The characters of a tag are read up to one that cannot belong to it. -/
theorem exists_readUri {verbatim : Bool} {uri : List UInt8} {width : Nat}
    (h : readUri verbatim cs = some (uri, width, rest)) :
    ∃ w, w.length = width ∧ (∀ c ∈ w, isBreak c = false) ∧ cs = w ++ rest ∧
      ∀ rest', rest'.head? = rest.head? →
        readUri verbatim (w ++ rest') = some (uri, width, rest') := by
  obtain ⟨uri', huri, h⟩ := Option.bind_eq_some_iff.mp h
  simp only [Option.pure_def, Option.some.injEq, Prod.mk.injEq] at h
  obtain ⟨rfl, rfl, rfl⟩ := h
  refine ⟨cs.takeWhile (isUriChar verbatim), rfl, fun c hc => ?_,
    List.takeWhile_append_dropWhile.symm, fun rest' hrest' => ?_⟩
  · exact isBreak_of_isUriChar (List.mem_takeWhile_imp hc)
  · have hall : ∀ c ∈ cs.takeWhile (isUriChar verbatim), isUriChar verbatim c = true :=
      fun c hc => List.mem_takeWhile_imp hc
    have hstop : ∀ c ∈ rest'.head?, isUriChar verbatim c = false := by
      rw [hrest']
      intro c hc
      have hhead := List.head?_dropWhile_not (isUriChar verbatim) cs
      rw [Option.mem_def.mp hc] at hhead
      simpa using hhead
    simp only [readUri, takeWhile_append_of_head? hall hstop, dropWhile_append_of_head? hall hstop,
      huri]
    rfl

/-- A tag in angle brackets is read up to the closing one. -/
theorem readTag_angle (cs : List Char) :
    readTag ('!' :: '<' :: cs) = (readUri true cs).bind fun r =>
      match r.2.2 with
      | '>' :: rest => if r.2.1 = 0 then none else some ("", r.1, r.2.1 + 3, rest)
      | _ => none := rfl

/-- A tag behind a handle between two marks. -/
theorem readTag_handle {name : List Char} (hname : ∀ c ∈ name, isNameChar c = true)
    (cs : List Char) :
    readTag ('!' :: (name ++ '!' :: cs)) = (readUri false cs).bind fun r =>
      if r.2.1 = 0 then none
      else some ("!" ++ String.ofList name ++ "!", r.1, name.length + 2 + r.2.1, r.2.2) := by
  have hstop : ∀ c ∈ ('!' :: cs).head?, isNameChar c = false := by
    rintro _ ⟨⟩
    decide
  have hangle : ∀ cs', name ++ '!' :: cs ≠ '<' :: cs' := by
    intro cs' heq
    cases name with
    | nil => cases heq
    | cons c name =>
        obtain ⟨rfl, -⟩ := List.cons.inj heq
        exact absurd (hname _ List.mem_cons_self) (by decide)
  rw [readTag]
  · simp only [takeWhile_append_of_head? hname hstop, dropWhile_append_of_head? hname hstop]
    rfl
  · exact hangle

/-- A tag behind a single mark. -/
theorem readTag_suffix {name : List Char} (hname : ∀ c ∈ name, isNameChar c = true)
    (hangle : (name ++ cs).head? ≠ some '<')
    (hstop : ∀ c ∈ cs.head?, isNameChar c = false ∧ c ≠ '!') :
    readTag ('!' :: (name ++ cs)) = (readUri false cs).bind fun r =>
      let suffix := (Tag.ofText (String.ofList name)).bytes ++ r.1
      if suffix = [] then some ("", (Tag.ofText "!").bytes, 1 + name.length + r.2.1, r.2.2)
      else some ("!", suffix, 1 + name.length + r.2.1, r.2.2) := by
  have hends : ∀ c ∈ cs.head?, isNameChar c = false := fun c hc => (hstop c hc).1
  have hbang : ∀ cs', cs ≠ '!' :: cs' := fun cs' heq => (hstop '!' (by simp [heq])).2 rfl
  rw [readTag]
  · simp only [takeWhile_append_of_head? hname hends, dropWhile_append_of_head? hname hends]
    rfl
  · intro cs' heq
    exact hangle (by rw [heq]; rfl)

/-- **The text of a tag** in front of a rest: it is read up to its end, and it is read in the same
way in front of every other text with the same first character. -/
structure IsTagText (w : List Char) (handle : String) (suffix : List UInt8) (width : Nat)
    (rest : List Char) : Prop where
  length : w.length = width
  notBreak : ∀ c ∈ w, isBreak c = false
  reads : ∀ rest', rest'.head? = rest.head? →
    readTag (w ++ rest') = some (handle, suffix, width, rest')

section

variable {handle : String} {suffix : List UInt8} {width : Nat} {name : List Char}

/-- A tag in angle brackets is read from its own characters. -/
theorem exists_isTagText_angle
    (h : readTag ('!' :: '<' :: cs) = some (handle, suffix, width, rest)) :
    ∃ w, '!' :: '<' :: cs = w ++ rest ∧ IsTagText w handle suffix width rest := by
  rw [readTag_angle] at h
  obtain ⟨⟨uri, width₁, rest₁⟩, huri, h⟩ := Option.bind_eq_some_iff.mp h
  dsimp only at h
  split at h
  · next rest₂ =>
    split at h
    · cases h
    · next hwidth =>
      simp only [Option.some.injEq, Prod.mk.injEq] at h
      obtain ⟨rfl, rfl, rfl, rfl⟩ := h
      obtain ⟨w, hlength, hw, rfl, hlocal⟩ := exists_readUri huri
      refine ⟨'!' :: '<' :: (w ++ ['>']), by simp, by simp [hlength], ?_, fun rest' _ => ?_⟩
      · simp only [List.forall_mem_cons, List.forall_mem_append]
        exact ⟨by decide, by decide, hw, by decide, nofun⟩
      · have hread := hlocal ('>' :: rest') rfl
        simp only [List.cons_append, List.append_assoc, List.nil_append, readTag_angle, hread,
          Option.bind_some, if_neg hwidth]
  · cases h

/-- A tag behind a handle is read from its own characters and the next one. -/
theorem exists_isTagText_handle (hname : ∀ c ∈ name, isNameChar c = true)
    (h : readTag ('!' :: (name ++ '!' :: cs)) = some (handle, suffix, width, rest)) :
    ∃ w, '!' :: (name ++ '!' :: cs) = w ++ rest ∧ IsTagText w handle suffix width rest := by
  rw [readTag_handle hname] at h
  obtain ⟨⟨uri, width₁, rest₁⟩, huri, h⟩ := Option.bind_eq_some_iff.mp h
  dsimp only at h
  split at h
  · cases h
  · next hwidth =>
    simp only [Option.some.injEq, Prod.mk.injEq] at h
    obtain ⟨rfl, rfl, rfl, rfl⟩ := h
    obtain ⟨w, hlength, hw, rfl, hlocal⟩ := exists_readUri huri
    refine ⟨'!' :: (name ++ '!' :: w), by simp, ?_, ?_, fun rest' hrest' => ?_⟩
    · simp [← hlength]
      omega
    · simp only [List.forall_mem_cons, List.forall_mem_append]
      exact ⟨by decide, fun c hc => isBreak_of_isNameChar (hname c hc), by decide, hw⟩
    · rw [List.cons_append, List.append_assoc, List.cons_append, readTag_handle hname,
        hlocal rest' hrest', Option.bind_some, if_neg hwidth]

/-- A tag behind a single mark is read from its own characters and the next one. -/
theorem exists_isTagText_suffix (hname : ∀ c ∈ name, isNameChar c = true)
    (hangle : (name ++ cs).head? ≠ some '<')
    (hstop : ∀ c ∈ cs.head?, isNameChar c = false ∧ c ≠ '!')
    (h : readTag ('!' :: (name ++ cs)) = some (handle, suffix, width, rest)) :
    ∃ w, '!' :: (name ++ cs) = w ++ rest ∧ IsTagText w handle suffix width rest := by
  rw [readTag_suffix hname hangle hstop] at h
  obtain ⟨⟨uri, width₁, rest₁⟩, huri, hresult⟩ := Option.bind_eq_some_iff.mp h
  obtain ⟨w, hlength, hw, rfl, hlocal⟩ := exists_readUri huri
  have hwidth : ('!' :: (name ++ w)).length = 1 + name.length + width₁ := by
    simp [← hlength]
    omega
  have hbreaks : ∀ c ∈ '!' :: (name ++ w), isBreak c = false := by
    simp only [List.forall_mem_cons, List.forall_mem_append]
    exact ⟨by decide, fun c hc => isBreak_of_isNameChar (hname c hc), hw⟩
  have hread (rest' : List Char) (hrest' : rest'.head? = rest₁.head?) :
      readTag ('!' :: (name ++ w) ++ rest') =
        if (Tag.ofText (String.ofList name)).bytes ++ uri = [] then
          some ("", (Tag.ofText "!").bytes, 1 + name.length + width₁, rest')
        else some ("!", (Tag.ofText (String.ofList name)).bytes ++ uri,
          1 + name.length + width₁, rest') := by
    -- another rest with the same first character changes neither condition
    have hhead : (w ++ rest').head? = (w ++ rest₁).head? := by
      rw [List.head?_append, List.head?_append, hrest']
    have hangle' : (name ++ (w ++ rest')).head? ≠ some '<' := by
      rwa [List.head?_append, hhead, ← List.head?_append]
    rw [List.cons_append, List.append_assoc, readTag_suffix hname hangle' (hhead ▸ hstop),
      hlocal rest' hrest', Option.bind_some]
  dsimp only at hresult
  split at hresult
  · next hnil =>
    simp only [Option.some.injEq, Prod.mk.injEq] at hresult
    obtain ⟨rfl, rfl, rfl, rfl⟩ := hresult
    exact ⟨_, by simp, hwidth, hbreaks, fun rest' hrest' =>
      (hread rest' hrest').trans (if_pos hnil)⟩
  · next hnil =>
    simp only [Option.some.injEq, Prod.mk.injEq] at hresult
    obtain ⟨rfl, rfl, rfl, rfl⟩ := hresult
    exact ⟨_, by simp, hwidth, hbreaks, fun rest' hrest' =>
      (hread rest' hrest').trans (if_neg hnil)⟩

/-- **A tag is read from its own characters**: what follows it counts only in that it ends the
tag. -/
theorem exists_isTagText (h : readTag cs = some (handle, suffix, width, rest)) :
    ∃ w, cs = w ++ rest ∧ IsTagText w handle suffix width rest := by
  cases cs with
  | nil => cases h
  | cons c cs =>
  by_cases hbang : c = '!'
  · subst hbang
    by_cases hangle : cs.head? = some '<'
    · obtain ⟨cs, rfl⟩ := List.head?_eq_some_iff.mp hangle
      exact exists_isTagText_angle h
    · have hname : ∀ c ∈ cs.takeWhile isNameChar, isNameChar c = true :=
        fun c hc => List.mem_takeWhile_imp hc
      have hends := List.head?_dropWhile_not isNameChar cs
      rw [← List.takeWhile_append_dropWhile (p := isNameChar) (l := cs)] at h hangle ⊢
      generalize cs.takeWhile isNameChar = name at h hangle hname ⊢
      generalize cs.dropWhile isNameChar = behind at h hangle hends ⊢
      by_cases hhandle : behind.head? = some '!'
      · obtain ⟨behind, rfl⟩ := List.head?_eq_some_iff.mp hhandle
        exact exists_isTagText_handle hname h
      · refine exists_isTagText_suffix hname hangle (fun c hc => ⟨?_, ?_⟩) h
        · rw [Option.mem_def.mp hc] at hends
          simpa using hends
        · rintro rfl
          exact hhandle hc
  · unfold readTag at h
    split at h <;> simp_all

end

end AgentPipeline.Yaml.Scanner
