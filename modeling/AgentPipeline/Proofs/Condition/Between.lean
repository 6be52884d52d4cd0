import AgentPipeline.Proofs.Condition.SpacedScan

/-!
# Characters between quotes

A character between quotes belongs to a literal, since nothing but a literal has quotes in it, and
so to a leaf of the condition. There it is kept when white space is collapsed. Therefore it occurs
in every text that is read as the same condition up to spacing (`mem_of_sameUpToSpacing`).
-/

namespace AgentPipeline

open Quotes (outside)

variable {x : Char} {before behind : List Char}

namespace Quotes

/-- Collapsing keeps what stands between quotes. -/
theorem mem_collapseFrom {q : Quotes} {due : Bool} (h : q.after before ≠ outside) :
    x ∈ collapseFrom q due (before ++ x :: behind) := by
  induction before generalizing q due with
  | nil =>
      have hq : q ≠ outside := h
      rw [List.nil_append, collapseFrom_kept fun heq => absurd heq hq]
      split <;> simp
  | cons c before ih =>
      rw [List.cons_append]
      by_cases hblank : q = outside ∧ Text.isBlank c = true
      · obtain ⟨rfl, hc⟩ := hblank
        rw [after_cons, next_blank hc] at h
        rw [collapseFrom_blank hc]
        exact ih h
      · rw [collapseFrom_kept (by simpa using hblank)]
        have hmem : x ∈ collapseFrom (q.next c) false (before ++ x :: behind) := ih h
        split <;> simp [hmem]

/-- Collapsing adds no other characters than spaces. -/
theorem collapseFrom_subset (q : Quotes) (due : Bool) (cs : List Char) :
    collapseFrom q due cs ⊆ ' ' :: cs := by
  induction cs generalizing q due with
  | nil => exact List.nil_subset _
  | cons c cs ih =>
      have hrest : ∀ q due, collapseFrom q due cs ⊆ ' ' :: c :: cs := fun q due =>
        List.Subset.trans (ih q due) (List.cons_subset_cons _ (List.subset_cons_self c cs))
      by_cases hblank : q = outside ∧ Text.isBlank c = true
      · obtain ⟨rfl, hc⟩ := hblank
        rw [collapseFrom_blank hc]
        exact hrest _ _
      · rw [collapseFrom_kept (by simpa using hblank)]
        split <;> simp [List.cons_subset, hrest]

theorem collapse_subset (cs : List Char) : collapse cs ⊆ ' ' :: cs :=
  List.Subset.trans (collapseFrom_subset outside false _)
    (List.cons_subset_cons _ (List.dropWhile_sublist _).subset)

end Quotes

/-! ### Tokens -/

namespace Token

variable {position : Nat} {cs : List Char} {tokens : List Token} {text : String}

/-- The text of a literal token is a part of the text. -/
theorem Scans.literal_subset (h : Scans position cs tokens)
    (ht : .literal text ∈ kinds tokens) : text.toList ⊆ cs := by
  induction h with
  | nil => simp at ht
  | blank _ _ ih => exact List.subset_cons_of_subset _ (ih ht)
  | symbol hsymbol _ ih =>
      rw [kinds_cons, List.mem_cons] at ht
      rcases ht with rfl | ht
      · exact absurd hsymbol symbolAt_ne_literal
      · exact List.Subset.trans (ih ht) (List.drop_subset _ _)
  | literal _ _ _ _ _ ih =>
      rw [kinds_cons, List.mem_cons] at ht
      rcases ht with heq | ht
      · obtain rfl := TokenKind.literal.inj heq
        rw [literalText, String.toList_ofList]
        exact List.subset_append_of_subset_left _ (Text.trim_subset _)
      · exact List.subset_append_of_subset_right _ (ih ht)

/-- **What stands between quotes is in a literal**, by induction on the tokens: no quotes are open
behind any of them. -/
theorem Scans.exists_literal_of_between (h : Scans position cs tokens)
    (hcs : cs = before ++ x :: behind) (hquotes : outside.after before ≠ outside) :
    ∃ text, .literal text ∈ kinds tokens ∧ x ∈ Quotes.collapse text.toList := by
  induction h generalizing before with
  | nil => simp at hcs
  | blank hblank _ ih =>
      cases before with
      | nil => exact absurd rfl hquotes
      | cons c before =>
          obtain ⟨rfl, rfl⟩ := List.cons.inj hcs
          rw [Quotes.after_cons, Quotes.next_blank hblank] at hquotes
          exact ih rfl hquotes
  | @symbol _ c cs kind width _ hsymbol _ ih =>
      -- a symbol is one character or two of the same, which open no quotes
      have hnext := (not_blank_of_symbolAt hsymbol).2
      have hdrop : ∃ before', (c :: cs).drop width = before' ++ x :: behind ∧
          outside.after before' ≠ outside := by
        cases before with
        | nil => exact absurd rfl hquotes
        | cons c before =>
            obtain ⟨rfl, rfl⟩ := List.cons.inj hcs
            rw [Quotes.after_cons, hnext] at hquotes
            rcases symbolAt_width_cases hsymbol with rfl | ⟨rfl, hhead⟩
            · exact ⟨before, rfl, hquotes⟩
            · cases before with
              | nil => exact absurd rfl hquotes
              | cons d before =>
                  obtain rfl := Option.some.inj hhead
                  rw [Quotes.after_cons, hnext] at hquotes
                  exact ⟨before, rfl, hquotes⟩
      obtain ⟨before', heq, hquotes⟩ := hdrop
      obtain ⟨text, htext, hx⟩ := ih heq hquotes
      exact ⟨text, List.mem_cons_of_mem _ htext, hx⟩
  | @literal _ lit rest _ _ hhead _ hends _ ih =>
      have hclosed : outside.after lit = outside :=
        (quotes_afterAll Cursor.start lit).symm.trans hends.closed.1
      rcases List.append_eq_append_iff.mp hcs with ⟨before', rfl, hrest⟩ | ⟨more, rfl, hbehind⟩
      · rw [Quotes.after_append, hclosed] at hquotes
        obtain ⟨text, htext, hx⟩ := ih hrest hquotes
        exact ⟨text, List.mem_cons_of_mem _ htext, hx⟩
      · cases more with
        | nil => exact absurd (by simpa using hclosed) hquotes
        | cons y more =>
            obtain ⟨rfl, -⟩ := List.cons.inj hbehind
            refine ⟨_, List.mem_cons_self, ?_⟩
            rw [literalText, String.toList_ofList, Quotes.collapse_trim hclosed, Quotes.collapse,
              Quotes.trimStart_eq_self hhead]
            exact Quotes.mem_collapseFrom hquotes

end Token

/-! ### Leaves -/

namespace Condition

/-- The leaves of a sentence are its literals. -/
theorem Derives.mem_leaves {level : Precedence} {kinds : List TokenKind} {t : Condition}
    (h : Derives level kinds t) {l : Leaf} :
    l ∈ t.leaves ↔ .literal l.text ∈ kinds ∧ l.description = none := by
  induction h with
  | literal text =>
      obtain ⟨text', description⟩ := l
      simp [leaf, leaves]
  | paren _ ih => simp [ih]
  | primary _ ih | unary _ ih | conjunct _ ih => exact ih
  | not _ ih => simp [leaves, ih]
  | and _ _ ihl ihr | or _ _ ihl ihr => simp [leaves, ihl, ihr, or_and_right]

theorem SameUpToSpacing.exists_leaf {t t' : Condition} (h : SameUpToSpacing t t') {l : Leaf}
    (hl : l ∈ t.leaves) :
    ∃ l' ∈ t'.leaves, Quotes.collapse l.text.toList = Quotes.collapse l'.text.toList := by
  induction h with
  | leaf heq =>
      obtain rfl := List.mem_singleton.mp hl
      exact ⟨_, List.mem_singleton_self _, heq⟩
  | and _ _ ihl ihr | or _ _ ihl ihr =>
      rcases List.mem_append.mp hl with hl | hl
      · obtain ⟨l', hl', heq⟩ := ihl hl
        exact ⟨l', List.mem_append_left _ hl', heq⟩
      · obtain ⟨l', hl', heq⟩ := ihr hl
        exact ⟨l', List.mem_append_right _ hl', heq⟩
  | not _ ih => exact ih hl

/-- **What stands between quotes is not lost** as long as the condition is the same up to
spacing. -/
theorem mem_of_sameUpToSpacing {a b : String} {t t' : Condition} (ha : parse a = .ok t)
    (hb : parse b = .ok t') (hsame : SameUpToSpacing t t')
    (hx : a.toList = before ++ x :: behind) (hquotes : outside.after before ≠ outside) :
    x ∈ ' ' :: b.toList := by
  obtain ⟨tokens, hscan, hd⟩ := parse_eq_ok_iff.mp ha
  obtain ⟨tokens', hscan', hd'⟩ := parse_eq_ok_iff.mp hb
  obtain ⟨text, htext, hmem⟩ :=
    (Token.scan_eq_ok_iff.mp hscan).exists_literal_of_between hx hquotes
  obtain ⟨l', hl', heq⟩ := hsame.exists_leaf (hd.mem_leaves (l := ⟨text, none⟩).mpr ⟨htext, rfl⟩)
  have hleaf : l'.text.toList ⊆ b.toList :=
    (Token.scan_eq_ok_iff.mp hscan').literal_subset (hd'.mem_leaves.mp hl').1
  rw [heq] at hmem
  exact List.cons_subset_cons _ hleaf (Quotes.collapse_subset _ hmem)

end Condition

end AgentPipeline
