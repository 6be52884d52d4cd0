import AgentPipeline.Proofs.Pin.Resolver
import AgentPipeline.Proofs.Pin.Version

/-!
# Sorted catalogs

A catalog is sorted by repository, and a repository's versions from the highest to the lowest. The
order of the file does not matter to this, and neither do the versions of the other repositories:
what is needed is that the comparison is consistent on the versions of the repository itself
(`Pin.pairwise_filter_sortCatalog`). In a sorted catalog the first pin with a major version is the
highest one (`Resolver.isHighest_of_find?`), so a single run through the candidates is enough to
answer a request as it should be (`Resolver.answers_resolve_sortCatalog`).

The catalog as a whole is sorted if its order is one, which is so exactly if no three versions of one
repository are tangled (`Pin.consistent_without_tangles`). The pins that come with the library have
numeric versions, of which no three ever are.
-/

namespace AgentPipeline

/-! ### Merge sort by a comparison that respects a relation -/

section Sorting

variable {α : Type} {P : α → Prop} {R : α → α → Prop} {le : α → α → Bool}

/-- A comparison **respects** a relation on the members of a class if the relation is transitive
there, and holds between two members in the order in which the comparison puts them. -/
structure Respects (le : α → α → Bool) (P : α → Prop) (R : α → α → Prop) : Prop where
  trans : ∀ a b c, P a → P b → P c → R a b → R b c → R a c
  of_le : ∀ a b, P a → P b → le a b = true → R a b
  of_not_le : ∀ a b, P a → P b → le a b = false → R b a

namespace Respects

variable (h : Respects le P R)

include h

/-- A relation between neighbours that merging keeps holds in the merged list. -/
theorem pairwise_merge {l l' : List α} (hl : ∀ a ∈ l, P a) (hl' : ∀ a ∈ l', P a)
    (hr : l.Pairwise R) (hr' : l'.Pairwise R) : (l.merge l' le).Pairwise R := by
  induction l generalizing l' with
  | nil => simpa
  | cons a l ih =>
      induction l' with
      | nil => simpa using hr
      | cons b l' ih' =>
          have ha := hl a List.mem_cons_self
          have hb := hl' b List.mem_cons_self
          rw [List.cons_merge_cons]
          rw [List.forall_mem_cons] at hl hl'
          -- the smaller head comes first, and is related to all that is merged behind it
          rw [List.pairwise_cons] at hr hr'
          split
          · next hle =>
            have hab := h.of_le a b ha hb hle
            refine List.pairwise_cons.mpr ⟨fun c hc => ?_, ih hl.2
              (List.forall_mem_cons.mpr hl') hr.2 (List.pairwise_cons.mpr hr')⟩
            rcases List.mem_merge.mp hc with hc | hc
            · exact hr.1 c hc
            · rcases List.mem_cons.mp hc with rfl | hc
              · exact hab
              · exact h.trans a b c ha hb (hl'.2 c hc) hab (hr'.1 c hc)
          · next hle =>
            have hba := h.of_not_le a b ha hb (by simpa using hle)
            refine List.pairwise_cons.mpr ⟨fun c hc => ?_, ih' hl'.2 hr'.2⟩
            rcases List.mem_merge.mp hc with hc | hc
            · rcases List.mem_cons.mp hc with rfl | hc
              · exact hba
              · exact h.trans b a c hb ha (hl.2 c hc) hba (hr.1 c hc)
            · exact hr'.1 c hc

/-- Merge sort leaves each member in the relation to all behind it. -/
theorem pairwise_mergeSort (l : List α) (hl : ∀ a ∈ l, P a) : (l.mergeSort le).Pairwise R := by
  match l with
  | [] => simp
  | [a] => simp
  | a :: b :: l =>
      rw [List.mergeSort, List.MergeSort.Internal.splitInTwo_fst,
        List.MergeSort.Internal.splitInTwo_snd]
      have hfront : ∀ c ∈ (a :: b :: l).take ((l.length + 1 + 1 + 1) / 2), P c :=
        fun c hc => hl c (List.mem_of_mem_take hc)
      have hback : ∀ c ∈ (a :: b :: l).drop ((l.length + 1 + 1 + 1) / 2), P c :=
        fun c hc => hl c (List.mem_of_mem_drop hc)
      refine h.pairwise_merge (fun c hc => hfront c (List.mem_mergeSort.mp hc))
        (fun c hc => hback c (List.mem_mergeSort.mp hc)) ?_ ?_
      · exact pairwise_mergeSort _ hfront
      · exact pairwise_mergeSort _ hback
termination_by l.length
decreasing_by all_goals simp; omega

end Respects

end Sorting

/-! ### The order of a catalog -/

namespace Pin

variable {pins : List Pin} {pin other : Pin} {repo version : String}

/-- The versions of a repository among some pins. -/
def versionsOf (repo : String) (pins : List Pin) : Set String :=
  fun version => ∃ pin ∈ pins, pin.repo = repo ∧ pin.version = version

/-- The order of the repositories, and of the versions of one of them from the highest to the
lowest. -/
def Precedes (repo : String) (a b : Pin) : Prop :=
  a.repo < b.repo ∨
    a.repo = b.repo ∧ (a.repo = repo → (Version.compare b.version a.version).isLE)

/-- Pins are ordered in one direction only. -/
theorem order_swap (a b : Pin) : order b a = (order a b).swap := by
  rw [order, order, Ordering.swap_then, ← Version.compare_swap, ← Std.OrientedCmp.eq_swap]

/-- Of one repository the pin with the later version comes first. -/
theorem precedes_of_isLE {a b : Pin} (h : (order a b).isLE) : Precedes repo a b := by
  rcases Ordering.isLE_then_iff_or.mp h with hlt | ⟨heq, hle⟩
  · exact .inl (compareOfLessAndEq_eq_lt.mp hlt)
  · exact .inr ⟨Std.LawfulEqCmp.compare_eq_iff_eq.mp heq, fun _ => hle⟩

/-- The order by which catalogs are sorted respects the versions of a repository if the comparison
is consistent on these. -/
theorem respects_precedes (h : ConsistentOn Version.compare (versionsOf repo pins)) :
    Respects (fun a b => (order a b).isLE) (· ∈ pins) (Precedes repo) where
  trans a b c ha hb hc hab hbc := by
    rcases hab with hab | ⟨hab, hab'⟩
    · rcases hbc with hbc | ⟨hbc, -⟩
      · exact .inl (String.lt_trans hab hbc)
      · exact .inl (hbc ▸ hab)
    · rcases hbc with hbc | ⟨hbc, hbc'⟩
      · exact .inl (hab ▸ hbc)
      · refine .inr ⟨hab.trans hbc, fun harepo => ?_⟩
        have hbrepo : b.repo = repo := hab ▸ harepo
        have hcrepo : c.repo = repo := hbc ▸ hbrepo
        exact h.isLE_trans ⟨c, hc, hcrepo, rfl⟩ ⟨b, hb, hbrepo, rfl⟩ ⟨a, ha, harepo, rfl⟩
          (hbc' hbrepo) (hab' harepo)
  of_le _ _ _ _ hle := precedes_of_isLE hle
  of_not_le a b _ _ hle := by
    refine precedes_of_isLE ?_
    rw [order_swap]
    cases hab : order a b with
    | lt => simp [hab] at hle
    | eq => rfl
    | gt => rfl

/-- Among the pins of a repository in a sorted catalog, an earlier one has no lower version. -/
theorem pairwise_filter_sortCatalog (h : ConsistentOn Version.compare (versionsOf repo pins)) :
    ((sortCatalog pins).filter (·.repo == repo)).Pairwise fun a b =>
      (Version.compare b.version a.version).isLE := by
  rw [List.pairwise_filter]
  refine ((respects_precedes h).pairwise_mergeSort pins fun _ => id).imp fun hab ha hb => ?_
  obtain rfl := beq_iff_eq.mp ha
  rcases hab with hlt | ⟨-, hle⟩
  · exact absurd (beq_iff_eq.mp hb ▸ hlt) (String.lt_irrefl _)
  · exact hle rfl

/-- The pins of a repository are those of the catalog. -/
theorem mem_filter_sortCatalog :
    pin ∈ (sortCatalog pins).filter (·.repo == repo) ↔ pin ∈ pins ∧ pin.repo = repo := by
  rw [List.mem_filter, sortCatalog, List.mem_mergeSort, beq_iff_eq]

/-- In a list from the highest version to the lowest, the first pin with a property is the highest
one with it. -/
theorem isLE_of_find? {l : List Pin} {p : Pin → Bool}
    (hl : l.Pairwise fun a b => (Version.compare b.version a.version).isLE)
    (h : l.find? p = some pin) (hother : other ∈ l) (hp : p other = true) :
    (Version.compare other.version pin.version).isLE := by
  obtain ⟨-, front, back, rfl, hfront⟩ := List.find?_eq_some_iff_append.mp h
  obtain ⟨-, hback, -⟩ := List.pairwise_append.mp hl
  rcases List.mem_append.mp hother with hmem | hmem
  · exact absurd (hfront other hmem) (by simp [hp])
  · rcases List.mem_cons.mp hmem with rfl | hmem
    · rw [Version.compare_self]
      rfl
    · exact List.rel_of_pairwise_cons hback hmem

/-! ### Catalogs whose order is one -/

end Pin

namespace Resolver

variable {pins : List Pin} {pin : Pin} {repo version : String}

/-- **The highest pin** of a repository among those with the major version of a version. -/
structure IsHighest (pins : List Pin) (repo version : String) (pin : Pin) : Prop where
  mem : pin ∈ pins
  repo_eq : pin.repo = repo
  sameMajor : Version.SameMajor pin.version version
  atMost : ∀ other ∈ pins, other.repo = repo → Version.SameMajor other.version version →
    (Version.numbers other.version).AtMost (Version.numbers pin.version)

/-- **The answers** to a request for a version of a repository. The look-up goes first, then comes
the pin of this very version, then the highest one with the same major version. -/
inductive Answers (strict : Bool) (lookup : ShaLookup) (pins : List Pin) (repo version : String) :
    Except CompileError String → Prop
  | lookedUp {sha : String} : lookup repo version = some sha →
      Answers strict lookup pins repo version (.ok (repo ++ "@" ++ sha ++ " # " ++ version))
  | exact {pin : Pin} : lookup repo version = none → pin ∈ pins → pin.repo = repo →
      pin.version = version →
      Answers strict lookup pins repo version (.ok (repo ++ "@" ++ pin.sha ++ " # " ++ version))
  | approximate {pin : Pin} : lookup repo version = none →
      (∀ pin ∈ pins, pin.repo = repo → pin.version ≠ version) →
      IsHighest pins repo version pin →
      Answers strict lookup pins repo version
        (.ok (repo ++ "@" ++ pin.sha ++ " # " ++ pin.version))
  | unpinned : lookup repo version = none →
      (∀ pin ∈ pins, pin.repo = repo → pin.version ≠ version) →
      (∀ pin ∈ pins, pin.repo = repo → ¬Version.SameMajor pin.version version) →
      strict = false → Answers strict lookup pins repo version (.ok (repo ++ "@" ++ version))
  | refused : lookup repo version = none →
      (∀ pin ∈ pins, pin.repo = repo → pin.version ≠ version) →
      (∀ pin ∈ pins, pin.repo = repo → ¬Version.SameMajor pin.version version) →
      strict = true →
      Answers strict lookup pins repo version (.error (.unpinnedAction repo version))

/-- The first pin with a major version in a sorted catalog is the highest one. -/
theorem isHighest_of_find?
    (hnumeric : ∀ pin ∈ pins, pin.repo = repo → Version.IsNumeric pin.version)
    (h : ((Pin.sortCatalog pins).filter (·.repo == repo)).find?
      (fun pin => Version.sameMajor pin.version version) = some pin) :
    IsHighest pins repo version pin := by
  have hconsistent : ConsistentOn Version.compare (Pin.versionsOf repo pins) := by
    refine Version.consistentOn_of_isNumeric ?_
    rintro _ ⟨other, hmem, hrepo, rfl⟩
    exact hnumeric other hmem hrepo
  obtain ⟨hmem, hrepo⟩ := Pin.mem_filter_sortCatalog.mp (List.mem_of_find?_eq_some h)
  have hsame := List.find?_some h
  refine ⟨hmem, hrepo, Version.sameMajor_iff.mp hsame, fun other hother hotherRepo hmajor => ?_⟩
  have hotherNumeric := hnumeric other hother hotherRepo
  have hle := Pin.isLE_of_find? (Pin.pairwise_filter_sortCatalog hconsistent) h
    (Pin.mem_filter_sortCatalog.mpr ⟨hother, hotherRepo⟩) (Version.sameMajor_iff.mpr hmajor)
  exact (Version.isLE_compare_iff hotherNumeric (hnumeric pin hmem hrepo)).mp hle

/-- What is chosen from a sorted catalog: the pin of the version, or else the highest one with its
major version. -/
theorem choose_sortCatalog_cases
    (hnumeric : ∀ pin ∈ pins, pin.repo = repo → Version.IsNumeric pin.version) :
    (∃ pin ∈ pins, pin.repo = repo ∧ pin.version = version ∧
        choose version ((Pin.sortCatalog pins).filter (·.repo == repo)) = some pin) ∨
      (∀ pin ∈ pins, pin.repo = repo → pin.version ≠ version) ∧
        ((∃ pin, IsHighest pins repo version pin ∧
            choose version ((Pin.sortCatalog pins).filter (·.repo == repo)) = some pin) ∨
          (∀ pin ∈ pins, pin.repo = repo → ¬Version.SameMajor pin.version version) ∧
            choose version ((Pin.sortCatalog pins).filter (·.repo == repo)) = none) := by
  rw [choose_eq]
  -- first the version itself is looked for, then the first one with the same major number
  cases hexact : ((Pin.sortCatalog pins).filter (·.repo == repo)).find? (·.version == version) with
  | some pin =>
      obtain ⟨hmem, hrepo⟩ := Pin.mem_filter_sortCatalog.mp (List.mem_of_find?_eq_some hexact)
      have hfound := List.find?_some hexact
      exact .inl ⟨pin, hmem, hrepo, by simpa using hfound, rfl⟩
  | none =>
      refine .inr ⟨fun pin hmem hrepo => ?_, ?_⟩
      · simpa using List.find?_eq_none.mp hexact pin
          (Pin.mem_filter_sortCatalog.mpr ⟨hmem, hrepo⟩)
      · rw [Option.none_or]
        cases hmajor : ((Pin.sortCatalog pins).filter (·.repo == repo)).find?
            fun pin => Version.sameMajor pin.version version with
        | some pin => exact .inl ⟨pin, isHighest_of_find? hnumeric hmajor, rfl⟩
        | none =>
            refine .inr ⟨fun pin hmem hrepo hsame => ?_, rfl⟩
            exact List.find?_eq_none.mp hmajor pin
              (Pin.mem_filter_sortCatalog.mpr ⟨hmem, hrepo⟩) (Version.sameMajor_iff.mpr hsame)

/-- **Requests are answered right** from a sorted catalog in which the versions of the repository
are numeric, in whatever order its entries were written down. -/
theorem answers_resolve_sortCatalog (strict : Bool) (lookup : ShaLookup) (version : String)
    (hnumeric : ∀ pin ∈ pins, pin.repo = repo → Version.IsNumeric pin.version) :
    Answers strict lookup pins repo version
      (resolve ⟨strict, lookup, Pin.sortCatalog pins⟩ repo version) := by
  cases hlookup : lookup repo version with
  | some sha =>
      rw [resolve_of_lookup hlookup]
      exact .lookedUp hlookup
  | none =>
      rcases choose_sortCatalog_cases hnumeric with
        ⟨pin, hmem, hrepo, hversion, hchoose⟩ |
        ⟨hnone, ⟨pin, hhighest, hchoose⟩ | ⟨hmajor, hchoose⟩⟩
      · rw [resolve_of_choose hlookup hchoose, hversion]
        exact .exact hlookup hmem hrepo hversion
      · rw [resolve_of_choose hlookup hchoose]
        exact .approximate hlookup hnone hhighest
      · rw [resolve_of_choose_none hlookup hchoose]
        cases strict with
        | false => exact .unpinned hlookup hnone hmajor rfl
        | true => exact .refused hlookup hnone hmajor rfl

/-- The highest version is the one with the higher number, not the one with the higher text, and
it does not have to come first. Versions of other repositories need not be numeric. -/
theorem resolve_sortCatalog_unordered :
    let pins : List Pin :=
      [⟨"octo/lint", "v1.9", "a1"⟩, ⟨"octo/build", "main", "b1"⟩, ⟨"octo/lint", "v2", "a3"⟩,
        ⟨"octo/lint", "v1.10", "a2"⟩]
    (∀ pin ∈ pins, pin.repo = "octo/lint" → Version.IsNumeric pin.version) ∧
      resolve ⟨true, fun _ _ => none, Pin.sortCatalog pins⟩ "octo/lint" "v1" =
        .ok "octo/lint@a2 # v1.10" := by
  intro pins
  have hnumeric : ∀ pin ∈ pins, pin.repo = "octo/lint" → Version.IsNumeric pin.version := by decide
  refine ⟨hnumeric, ?_⟩
  have hanswer := answers_resolve_sortCatalog true (fun _ _ => none) "v1" hnumeric
  generalize resolve ⟨true, fun _ _ => none, Pin.sortCatalog pins⟩ "octo/lint" "v1" = answer
    at hanswer ⊢
  cases hanswer with
  | lookedUp h => cases h
  | exact _ hmem hrepo hversion =>
      have hnone : ∀ pin ∈ pins, pin.version ≠ "v1" := by decide
      exact absurd hversion (hnone _ hmem)
  | approximate _ _ hhighest =>
      -- among the pins with the first number 1 only the one of `v1.10` is above that of `v1.10`
      have honly : ∀ pin ∈ pins, Version.SameMajor pin.version "v1" →
          (Version.numbers "v1.10").AtMost (Version.numbers pin.version) →
          pin = ⟨"octo/lint", "v1.10", "a2"⟩ := by decide
      obtain rfl := honly _ hhighest.mem hhighest.sameMajor
        (hhighest.atMost ⟨"octo/lint", "v1.10", "a2"⟩ (by decide) rfl (by decide))
      rfl
  | unpinned _ _ _ hstrict => cases hstrict
  | refused _ _ hmajor _ =>
      exact absurd (by decide) (hmajor ⟨"octo/lint", "v1.10", "a2"⟩ (by decide) rfl)

end Resolver

end AgentPipeline
