import AgentPipeline.Proofs.Reference.Names
import AgentPipeline.Proofs.Condition.Grammar
import AgentPipeline.Proofs.Condition.Lines

/-!
# References and the layout of a condition

Which jobs a condition refers to does not depend on how it is written down. The parentheses and
operators that rendering puts around the leaves are separators, and so is white space. So a
condition that has been read refers to what its leaves refer to, in their order
(`namesFrom_render`), a text refers to what its words refer to (`namesFrom_words`), and breaking an
expression into lines, which keeps the words, keeps the references (`needsReferences_layout`).
-/

namespace AgentPipeline

/-- The jobs that the leaves of a condition refer to. -/
def Condition.references (t : Condition) : NameSet :=
  t.leaves.foldl (fun names l => names.union (Reference.needsReferences l.text)) .empty

namespace Reference

variable {cs : List Char} {c : Char}

/-! ### Leaves -/

/-- **The references of a condition** that has been read are those of its leaves, by induction on
its derivation. -/
theorem namesFrom_render {level : Condition.Precedence} {kinds : List TokenKind} {t : Condition}
    (h : Condition.Derives level kinds t) :
    namesFrom 0 none t.render.toList =
      t.leaves.flatMap fun l => namesFrom 0 none l.text.toList := by
  induction h with
  | literal text => exact (List.append_nil _).symm
  | paren _ ih | primary _ ih | unary _ ih | conjunct _ ih => exact ih
  | not _ ih => rw [namesFrom_not, ih, Condition.leaves]
  | and _ _ ihl ihr => rw [namesFrom_and, ihl, ihr, Condition.leaves, List.flatMap_append]
  | or _ _ ihl ihr => rw [namesFrom_or, ihl, ihr, Condition.leaves, List.flatMap_append]

theorem needsReferences_render {text : String} {t : Condition}
    (h : Condition.parse text = .ok t) : needsReferences t.render = t.references := by
  obtain ⟨tokens, -, hd⟩ := Condition.parse_eq_ok_iff.mp h
  refine NameSet.eq_of_mem_iff fun name => ?_
  rw [Condition.references, NameSet.mem_toList_foldl_union, or_iff_right NameSet.mem_toList_empty,
    mem_needsReferences, namesFrom_render hd, List.mem_flatMap]
  simp only [mem_needsReferences]

/-! ### Words -/

/-- **White space separates references**: none of its 25 characters is part of a word. -/
theorem separates_of_isBlank (hc : Text.isBlank c = true) : Separates c := by
  have hcodes : ∀ n ∈ [9, 10, 11, 12, 13, 0x20, 0x85, 0xA0, 0x1680, 0x2000, 0x2001, 0x2002, 0x2003,
      0x2004, 0x2005, 0x2006, 0x2007, 0x2008, 0x2009, 0x200A, 0x2028, 0x2029, 0x202F, 0x205F,
      0x3000], Separates (Char.ofNat n) := by decide +kernel
  rw [← Char.ofNat_toNat c]
  refine hcodes _ ?_
  simp only [Text.isBlank, Bool.or_eq_true, Bool.and_eq_true, decide_eq_true_eq, beq_iff_eq] at hc
  simp only [List.mem_cons, List.not_mem_nil, or_false]
  omega

/-- A text refers to what its words refer to, in their order. -/
theorem namesFrom_words (cs : List Char) :
    (Text.words cs).flatMap (namesFrom 0 none) = namesFrom 0 none cs := by
  induction hn : cs.length using Nat.strong_induction_on generalizing cs with
  | _ n ih =>
  by_cases hblank : ∃ c ∈ cs, Text.isBlank c = true
  · obtain ⟨c, hmem, hc⟩ := hblank
    obtain ⟨xs, ys, rfl⟩ := List.append_of_mem hmem
    rw [List.length_append, List.length_cons] at hn
    rw [Text.words_append_cons hc, List.flatMap_append, ih _ (by omega) xs rfl,
      ih _ (by omega) ys rfl, namesFrom_append_separator (separates_of_isBlank hc)]
  · -- without white space the text is its only word, unless it is empty
    have hsolid : ∀ c ∈ cs, Text.isBlank c = false := fun c hmem =>
      Bool.eq_false_iff.mpr fun hc => hblank ⟨c, hmem, hc⟩
    rw [Text.words_eq_splitOnP, List.splitOnP_eq_singleton hsolid]
    cases cs <;> simp [namesFrom]

theorem needsReferences_of_words {a b : String}
    (h : Text.words a.toList = Text.words b.toList) : needsReferences a = needsReferences b := by
  have hnames : namesFrom 0 none a.toList = namesFrom 0 none b.toList := by
    rw [← namesFrom_words, h, namesFrom_words]
  rw [needsReferences, hnames, needsReferences]

theorem needsReferences_breakLines (text : String) :
    needsReferences (" ".intercalate (Wrap.Str.breakLines text)) = needsReferences text := by
  have hwraps : Wrap.Str.Wraps (Wrap.Str.breakLines text) text :=
    Wrap.Str.wraps_of_areLines (Wrap.areLines_breakLines text.toList)
  have hwords := hwraps.respaced.words_append [] fun _ => rfl
  rw [List.nil_append, List.nil_append] at hwords
  exact needsReferences_of_words hwords.symm

/-- **References do not depend on the layout.** A condition that has been read refers to what its
leaves refer to, and an expression refers to the same jobs after it has been broken into lines. -/
theorem needsReferences_layout :
    (∀ (text : String) (t : Condition), Condition.parse text = .ok t →
      needsReferences t.render = t.references) ∧
    ∀ text : String,
      needsReferences (" ".intercalate (Wrap.Str.breakLines text)) = needsReferences text :=
  ⟨fun _ _ => needsReferences_render, needsReferences_breakLines⟩

/-- Two leaves, one of them in parentheses. -/
theorem needsReferences_layout_negated :
    ∃ t, Condition.parse "!(needs.lint.result) && needs.fetch.outputs.ok" = .ok t ∧
      (needsReferences t.render).toList = ["fetch", "lint"] ∧
      needsReferences (" ".intercalate (Wrap.Str.breakLines t.render)) = t.references := by
  let t : Condition := .and (.not (.leaf "needs.lint.result")) (.leaf "needs.fetch.outputs.ok")
  have hparse : Condition.parse "!(needs.lint.result) && needs.fetch.outputs.ok" = .ok t := by
    refine Condition.parse_eq_ok_iff.mpr ⟨[⟨.not, 0⟩, ⟨.openParen, 1⟩,
      ⟨.literal "needs.lint.result", 2⟩, ⟨.closeParen, 19⟩, ⟨.and, 21⟩,
      ⟨.literal "needs.fetch.outputs.ok", 24⟩], by decide, ?_⟩
    have hlint : Condition.Derives .or [.literal "needs.lint.result"] _ :=
      .conjunct (.unary (.primary (.literal _)))
    exact .conjunct (.and (.unary (.not (.primary (.paren hlint)))) (.primary (.literal _)))
  have hrender := needsReferences_layout.1 _ t hparse
  refine ⟨t, hparse, ?_, (needsReferences_layout.2 _).trans hrender⟩
  rw [hrender]
  decide

end Reference

end AgentPipeline
