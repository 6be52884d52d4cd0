import Mathlib.Data.List.Chain
import AgentPipeline.Pipeline.Context
import AgentPipeline.Proofs.Text.Trim

/-!
# Slugs

A **slug** consists of lower-case ASCII letters and digits with single dashes between them
(`IsSlug`). The slug of a name is one (`isSlug_slug`). It has the letters and digits of the name, in
their order and in lower case (`alphanumerics_slug`); a name that has none gives `workflow`.

Slugs are exactly the names that are their own slugs (`slug_eq_self_iff`). So nothing changes if the
slug of a slug is taken (`canonical_slug`).
-/

namespace AgentPipeline

variable {afterDash : Bool} {c : Char} {cs : List Char} {s name : String}

/-! ### Characters -/

/-- The characters between the dashes of a slug: lower-case ASCII letters and digits. -/
def IsSlugLetter (c : Char) : Prop := c.isLower = true ∨ c.isDigit = true

instance : DecidablePred IsSlugLetter := fun _ => inferInstanceAs (Decidable (_ ∨ _))

/-- ASCII letters and digits by their codes. -/
theorem isAlphanum_iff : c.isAlphanum = true ↔ 65 ≤ c.toNat ∧ c.toNat ≤ 90 ∨
    97 ≤ c.toNat ∧ c.toNat ≤ 122 ∨ 48 ≤ c.toNat ∧ c.toNat ≤ 57 := by
  change (decide (65 ≤ c.val ∧ c.val ≤ 90) || (decide (97 ≤ c.val) && decide (c.val ≤ 122)) ||
    c.isDigit) = true ↔ _
  simp [Char.isDigit, UInt32.le_iff_toNat_le, or_assoc]

/-- The letters and digits of a slug by their codes. -/
theorem isSlugLetter_iff : IsSlugLetter c ↔
    97 ≤ c.toNat ∧ c.toNat ≤ 122 ∨ 48 ≤ c.toNat ∧ c.toNat ≤ 57 := by
  change (decide (97 ≤ c.val) && decide (c.val ≤ 122)) = true ∨ c.isDigit = true ↔ _
  simp [Char.isDigit, UInt32.le_iff_toNat_le]

/-- In lower case an ASCII capital has the code of its small letter, 32 codes behind its own, and any
other character stays. -/
theorem toNat_toLower (c : Char) :
    c.toLower.toNat = if 65 ≤ c.toNat ∧ c.toNat ≤ 90 then c.toNat + 32 else c.toNat := by
  unfold Char.toLower
  split
  · next h =>
    have hcapital : 65 ≤ c.toNat ∧ c.toNat ≤ 90 := by simpa [UInt32.le_iff_toNat_le] using h
    have hfits : c.toNat + 32 < UInt32.size := by
      have hsize : UInt32.size = 4294967296 := rfl
      omega
    rw [if_pos hcapital]
    exact (UInt32.toNat_add c.val 32).trans (Nat.mod_eq_of_lt hfits)
  · next h =>
    have hother : ¬(65 ≤ c.toNat ∧ c.toNat ≤ 90) := by simpa [UInt32.le_iff_toNat_le] using h
    rw [if_neg hother]

namespace IsSlugLetter

/-- Slug letters are letters and digits. -/
theorem isAlphanum (h : IsSlugLetter c) : c.isAlphanum = true := by
  rw [isSlugLetter_iff] at h
  rw [isAlphanum_iff]
  omega

/-- Slug letters are in lower case already. -/
theorem toLower_eq (h : IsSlugLetter c) : c.toLower = c := by
  rw [isSlugLetter_iff] at h
  rw [← Char.toNat_inj, toNat_toLower, if_neg (by omega)]

/-- A slug letter is no dash. -/
theorem ne_dash (h : IsSlugLetter c) : c ≠ '-' := by
  rintro rfl
  exact absurd h (by decide)

end IsSlugLetter

/-- In lower case all ASCII letters and digits have their place in slugs. -/
theorem isSlugLetter_toLower (h : c.isAlphanum = true) : IsSlugLetter c.toLower := by
  rw [isAlphanum_iff] at h
  rw [isSlugLetter_iff, toNat_toLower]
  split <;> omega

/-- Two characters that are not both dashes. -/
def NotBothDashes (c d : Char) : Prop := c ≠ '-' ∨ d ≠ '-'

instance : DecidableRel NotBothDashes := fun _ _ => inferInstanceAs (Decidable (_ ∨ _))

/-- **Slugs**: lower-case ASCII letters and digits, and dashes that stand neither first nor last
nor next to each other. -/
structure IsSlug (s : String) : Prop where
  ne_empty : s ≠ ""
  letters : ∀ c ∈ s.toList, c = '-' ∨ IsSlugLetter c
  single : s.toList.IsChain NotBothDashes
  head : s.toList.head? ≠ some '-'
  last : s.toList.getLast? ≠ some '-'

instance : DecidablePred IsSlug := fun s =>
  decidable_of_iff (s ≠ "" ∧ (s.toList.all fun c => c = '-' ∨ IsSlugLetter c) = true ∧
      s.toList.IsChain NotBothDashes ∧ s.toList.head? ≠ some '-' ∧ s.toList.getLast? ≠ some '-')
    ⟨fun ⟨hne, hletters, hsingle, hhead, hlast⟩ =>
        ⟨hne, by simpa using hletters, hsingle, hhead, hlast⟩,
      fun h => ⟨h.ne_empty, by simpa using h.letters, h.single, h.head, h.last⟩⟩

/-! ### From the left

The dashes at the end are still there. What is known of the text in front is whether a dash stands
last in it, so the statements about dashes speak of a character in front as well. -/

/-- Nothing but slug letters and dashes is written. -/
theorem forall_mem_slugFrom (afterDash : Bool) (cs : List Char) :
    ∀ c ∈ slugFrom afterDash cs, c = '-' ∨ IsSlugLetter c := by
  fun_induction slugFrom afterDash cs with
  | case1 => exact List.forall_mem_nil _
  | case2 _ c cs hc ih => exact List.forall_mem_cons.mpr ⟨.inr (isSlugLetter_toLower hc), ih⟩
  | case3 c cs hc ih => exact ih
  | case4 _ c cs hc hafter ih => exact List.forall_mem_cons.mpr ⟨.inl rfl, ih⟩

/-- No dash comes behind another one. -/
theorem isChain_cons_slugFrom (h : c = '-' → afterDash = true) :
    (c :: slugFrom afterDash cs).IsChain NotBothDashes := by
  fun_induction slugFrom afterDash cs generalizing c with
  | case1 => exact .singleton c
  | case2 _ d cs hd ih =>
      have hne : d.toLower ≠ '-' := (isSlugLetter_toLower hd).ne_dash
      exact .cons_cons (.inr hne) (ih fun hdash => absurd hdash hne)
  | case3 d cs hd ih => exact ih h
  | case4 afterDash d cs hd hafter ih => exact .cons_cons (.inl (mt h hafter)) (ih fun _ => rfl)

/-- The letters and digits are written in their order and in lower case. -/
theorem filter_slugFrom (afterDash : Bool) (cs : List Char) :
    (slugFrom afterDash cs).filter Char.isAlphanum =
      (cs.filter Char.isAlphanum).map Char.toLower := by
  fun_induction slugFrom afterDash cs with
  | case1 => rfl
  | case2 _ c cs hc ih =>
      rw [List.filter_cons_of_pos (isSlugLetter_toLower hc).isAlphanum, ih,
        List.filter_cons_of_pos hc, List.map_cons]
  | case3 c cs hc ih => rw [ih, List.filter_cons_of_neg hc]
  | case4 _ c cs hc hafter ih =>
      rw [List.filter_cons_of_neg (by decide), ih, List.filter_cons_of_neg hc]

/-- Letters, digits and single dashes are written as they are. -/
theorem slugFrom_eq_self (hletters : ∀ d ∈ cs, d = '-' ∨ IsSlugLetter d)
    (hsingle : (c :: cs).IsChain NotBothDashes) (h : afterDash = true → c = '-') :
    slugFrom afterDash cs = cs := by
  fun_induction slugFrom afterDash cs generalizing c with
  | case1 => rfl
  | case2 _ d cs hd ih =>
      rw [List.forall_mem_cons] at hletters
      have hletter : IsSlugLetter d :=
        hletters.1.resolve_left fun hdash => absurd (hdash ▸ hd) (by decide)
      rw [hletter.toLower_eq, ih hletters.2 hsingle.tail nofun]
  | case3 d cs hd ih =>
      -- the dash would stand behind another one
      have hdash : d = '-' :=
        (hletters d List.mem_cons_self).resolve_right fun hletter => hd hletter.isAlphanum
      rcases (List.isChain_cons_cons.mp hsingle).1 with hne | hne
      · exact absurd (h rfl) hne
      · exact absurd hdash hne
  | case4 _ d cs hd hafter ih =>
      rw [List.forall_mem_cons] at hletters
      have hdash : d = '-' :=
        hletters.1.resolve_right fun hletter => hd hletter.isAlphanum
      rw [hdash] at hsingle ⊢
      rw [ih hletters.2 hsingle.tail fun _ => rfl]

/-! ### Without the dashes at the end -/

/-- The ASCII letters and digits of a text, in their order. -/
def alphanumerics (s : String) : List Char := s.toList.filter Char.isAlphanum

/-- What a name gives without the dashes at the end: its slug, unless nothing is left. -/
def slugBody (name : String) : List Char :=
  Text.dropTail (· == '-') (slugFrom true name.toList)

/-- Only dashes are dropped at the end. -/
theorem exists_slugBody (name : String) :
    ∃ back, slugFrom true name.toList = slugBody name ++ back ∧ ∀ c ∈ back, c = '-' := by
  obtain ⟨back, hback, hdashes⟩ := Text.exists_dropTail (· == '-') (slugFrom true name.toList)
  exact ⟨back, hback, fun c hc => beq_iff_eq.mp (hdashes c hc)⟩

/-- What is left consists of slug letters and dashes. -/
theorem forall_mem_slugBody (name : String) : ∀ c ∈ slugBody name, c = '-' ∨ IsSlugLetter c := by
  intro c hc
  obtain ⟨back, hback, -⟩ := exists_slugBody name
  refine forall_mem_slugFrom true name.toList c ?_
  rw [hback]
  exact List.mem_append_left back hc

/-- No two dashes stand next to each other, and none stands first. -/
theorem isChain_cons_slugBody (name : String) : ('-' :: slugBody name).IsChain NotBothDashes := by
  obtain ⟨back, hback, -⟩ := exists_slugBody name
  have hchain : ('-' :: slugFrom true name.toList).IsChain NotBothDashes :=
    isChain_cons_slugFrom fun _ => rfl
  rw [hback, ← List.cons_append] at hchain
  exact hchain.left_of_append

/-- No dash stands last. -/
theorem getLast?_slugBody (name : String) : (slugBody name).getLast? ≠ some '-' := by
  intro hdash
  exact absurd (Text.getLast?_dropTail _ _ _ hdash) (by decide)

/-- What is left has the letters and digits of the name. -/
theorem filter_slugBody (name : String) :
    (slugBody name).filter Char.isAlphanum = (alphanumerics name).map Char.toLower := by
  obtain ⟨back, hback, hdashes⟩ := exists_slugBody name
  have hnone : back.filter Char.isAlphanum = [] := List.filter_eq_nil_iff.mpr fun c hc => by
    rw [hdashes c hc]
    decide
  calc (slugBody name).filter Char.isAlphanum
      = (slugBody name ++ back).filter Char.isAlphanum := by
        rw [List.filter_append, hnone, List.append_nil]
    _ = (slugFrom true name.toList).filter Char.isAlphanum := by rw [hback]
    _ = (alphanumerics name).map Char.toLower := filter_slugFrom true name.toList

/-- Something is left exactly of the names that have letters or digits. -/
theorem slugBody_eq_nil_iff : slugBody name = [] ↔ alphanumerics name = [] := by
  have hfilter := filter_slugBody name
  constructor
  · intro hnil
    rw [hnil] at hfilter
    exact List.map_eq_nil_iff.mp hfilter.symm
  · intro hnone
    rw [hnone, List.map_nil, List.filter_eq_nil_iff] at hfilter
    by_contra hne
    -- the last character is no dash, so it is a letter or a digit
    have hmem := List.getLast_mem hne
    have hlast := getLast?_slugBody name
    rw [List.getLast?_eq_some_getLast hne, Ne, Option.some.injEq] at hlast
    have hletter := (forall_mem_slugBody name _ hmem).resolve_left hlast
    exact hfilter _ hmem hletter.isAlphanum

/-! ### Slugs of names -/

/-- A name without letters and digits gives `workflow`. -/
theorem slug_eq_workflow (h : alphanumerics name = []) : slug name = "workflow" :=
  if_pos (slugBody_eq_nil_iff.mpr h)

/-- Any other name gives what is left. -/
theorem toList_slug (h : alphanumerics name ≠ []) : (slug name).toList = slugBody name := by
  have hslug : slug name = String.ofList (slugBody name) := if_neg (mt slugBody_eq_nil_iff.mp h)
  rw [hslug, String.toList_ofList]

/-- The default is a slug. -/
theorem isSlug_workflow : IsSlug "workflow" := by decide

/-- **The slug of a name is a slug.** -/
theorem isSlug_slug (name : String) : IsSlug (slug name) := by
  by_cases h : alphanumerics name = []
  · rw [slug_eq_workflow h]
    exact isSlug_workflow
  · have hlist := toList_slug h
    have hsingle := isChain_cons_slugBody name
    constructor
    case ne_empty =>
      intro hempty
      rw [hempty] at hlist
      exact h (slugBody_eq_nil_iff.mp hlist.symm)
    case letters => exact hlist ▸ forall_mem_slugBody name
    case single => exact hlist ▸ hsingle.tail
    case head =>
      rw [hlist]
      exact fun hdash => (hsingle.rel_head? hdash).elim (absurd rfl) (absurd rfl)
    case last => exact hlist ▸ getLast?_slugBody name

/-- A slug has the letters and digits of its name, in lower case. -/
theorem alphanumerics_slug (h : alphanumerics name ≠ []) :
    alphanumerics (slug name) = (alphanumerics name).map Char.toLower := by
  rw [alphanumerics, toList_slug h, filter_slugBody]

/-- A slug is its own slug. -/
theorem IsSlug.slug_eq_self (h : IsSlug s) : slug s = s := by
  have hsingle : ('-' :: s.toList).IsChain NotBothDashes :=
    h.single.cons fun c hc => .inr fun hdash => h.head (hdash ▸ hc)
  have hbody : slugBody s = s.toList := by
    rw [slugBody, slugFrom_eq_self h.letters hsingle fun _ => rfl]
    exact Text.dropTail_eq_self fun c hc =>
      beq_eq_false_iff_ne.mpr fun hdash => h.last (hdash ▸ hc)
  have hne : slugBody s ≠ [] := by
    rw [hbody]
    exact mt String.toList_eq_nil_iff.mp h.ne_empty
  rw [← String.toList_inj, toList_slug (mt slugBody_eq_nil_iff.mpr hne), hbody]

/-- **Slugs are exactly the names that are their own slugs.** -/
theorem slug_eq_self_iff : slug s = s ↔ IsSlug s :=
  ⟨fun h => h ▸ isSlug_slug s, IsSlug.slug_eq_self⟩

/-- **Slugs are canonical**: every name has one, with its letters and digits unless it has none, and
it is its own slug. -/
theorem canonical_slug (name : String) :
    IsSlug (slug name) ∧
      (alphanumerics name ≠ [] →
        alphanumerics (slug name) = (alphanumerics name).map Char.toLower) ∧
      slug (slug name) = slug name :=
  ⟨isSlug_slug name, alphanumerics_slug, slug_eq_self_iff.mpr (isSlug_slug name)⟩

/-- Letters beyond ASCII are dashes like everything else that is neither letter nor digit. -/
theorem canonical_slug_accents :
    alphanumerics "— Déjà vu: Triage #7!" ≠ [] ∧
      slug "— Déjà vu: Triage #7!" = "d-j-vu-triage-7" ∧
      alphanumerics (slug "— Déjà vu: Triage #7!") = "djvutriage7".toList := by
  have hsome : alphanumerics "— Déjà vu: Triage #7!" ≠ [] := by decide
  refine ⟨hsome, by decide, ((canonical_slug _).2.1 hsome).trans ?_⟩
  decide

end AgentPipeline
