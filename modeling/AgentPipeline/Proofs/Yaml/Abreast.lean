import AgentPipeline.Proofs.Yaml.Deeper
import AgentPipeline.Proofs.Yaml.Progress
import AgentPipeline.Proofs.Yaml.Tag
import Mathlib.Data.List.Forall2

/-!
# Scanning a deeper text

Two scanners read a text and a deeper one (`Deeper`), side by side, behind tokens of their own. They
stay **abreast** (`Abreast`): what they add to the tokens is the same, and the columns of the
collections that are open differ by the depth. So the second one comes to an end if the first one
does, with the same tokens behind its own (`exists_yields_of_abreast`).

There is a single exception. A block scalar whose header gives its column may start so far on the
left that all further lines of the text belong to it; and in the deeper text the empty ones among
these may then have a margin. The first scanner then comes to its end with this scalar
(`Swallowed`).
-/

namespace AgentPipeline.Yaml

open Position (Alike)

/-- A place where a key may have started, and the same place in a deeper text, with `p` and `p'` for
how far the reading has come. The tokens `pre` and `pre'` stand in front. -/
structure Candidate.Abreast (m d : Nat) (pre pre' : List YamlToken) (p p' : Position)
    (c c' : Candidate) : Prop where
  token : ∃ k, c.token = pre.length + k ∧ c'.token = pre'.length + k
  le : m ≤ c.position.column
  column : c'.position.column = c.position.column + d
  required : c'.required = c.required
  alike : Alike c.position p c'.position p'

/-- A candidate can no longer be a key if and only if this is so in the deeper text. -/
theorem Candidate.Abreast.stale_iff {m d : Nat} {pre pre' : List YamlToken} {p p' : Position}
    {c c' : Candidate} (h : Candidate.Abreast m d pre pre' p p' c c') :
    (c'.position.line < p'.line ∨ c'.position.index + 1024 < p'.index) ↔
      (c.position.line < p.line ∨ c.position.index + 1024 < p.index) := by
  obtain ⟨hle, hline, hindex⟩ := h.alike
  rcases Nat.eq_or_lt_of_le hle with heq | hlt
  · have hindex := hindex heq.symm
    omega
  · have hlt' : c'.position.line < p'.line := by omega
    exact iff_of_true (.inl hlt') (.inl hlt)

namespace Scanner

variable {m d : Nat} {pre pre' : List YamlToken} {s s' s₁ s₁' : Scanner} {p p' q q' : Position}
  {o o' o₁ : Option Candidate} {os os' os₁ : List (Option Candidate)} {c : Char}
  {cs cs' : List Char}

/-- Candidates at the same depth of brackets. -/
abbrev CandidatesAbreast (m d : Nat) (pre pre' : List YamlToken) (p p' : Position) :
    Option Candidate → Option Candidate → Prop :=
  Option.Rel (Candidate.Abreast m d pre pre' p p')

/-- **What two scanners keep** that read a text and a deeper one behind the tokens `pre` and `pre'`.
The outermost collection stands at the column zero and the others at the column `m` or behind
it. -/
structure Abreast (m d : Nat) (pre pre' : List YamlToken) (s s' : Scanner) : Prop where
  rest : Deeper m d s.position s.rest s'.position s'.rest
  tokens : ∃ ts, s.tokens.toList = pre ++ ts ∧ s'.tokens.toList = pre' ++ ts
  columns : ∃ columns, s.columns = columns ++ [0] ∧ ∀ column ∈ columns, m ≤ column
  columns_eq : s'.columns = s.columns.map (· + d)
  keyAllowed : s'.keyAllowed = s.keyAllowed
  candidate : CandidatesAbreast m d pre pre' s.position s'.position s.candidate s'.candidate
  outer : List.Forall₂ (CandidatesAbreast m d pre pre' s.position s'.position) s.outer s'.outer

/-! ### Candidates -/

/-- Candidates stay abreast when both readers come alike to another position. -/
theorem CandidatesAbreast.move (h : CandidatesAbreast m d pre pre' p p' o o')
    (hmove : Alike p q p' q') : CandidatesAbreast m d pre pre' q q' o o' := by
  cases h with
  | some h => exact .some ⟨h.token, h.le, h.column, h.required, h.alike.trans hmove⟩
  | none => exact .none

/-- If one candidate can be given up, so can the other one. -/
theorem CandidatesAbreast.withdraw (h : CandidatesAbreast m d pre pre' p p' o o')
    (hwithdraw : withdraw o = some o₁) :
    o₁ = none ∧ Scanner.withdraw o' = some none := by
  cases h with
  | some h =>
      simp only [Scanner.withdraw, h.required] at hwithdraw ⊢
      split at hwithdraw
      · cases hwithdraw
      · next hrequired =>
        exact ⟨(Option.some.inj hwithdraw).symm, if_neg hrequired⟩
  | none => exact ⟨(Option.some.inj hwithdraw).symm, rfl⟩

/-- Candidates that are looked at again both stay or are both given up, since the lines and the
columns behind them are the same. -/
theorem CandidatesAbreast.refresh (h : CandidatesAbreast m d pre pre' p p' o o')
    (hrefresh : refresh p o = some o₁) :
    ∃ o₁', Scanner.refresh p' o' = some o₁' ∧ CandidatesAbreast m d pre pre' p p' o₁ o₁' := by
  cases h with
  | none =>
      obtain rfl := Option.some.inj hrefresh
      exact ⟨none, rfl, .none⟩
  | @some c c' h =>
      simp only [Scanner.refresh, h.stale_iff] at hrefresh ⊢
      split at hrefresh
      · next hstale =>
        rw [if_pos hstale]
        obtain ⟨rfl, hnone⟩ := CandidatesAbreast.withdraw (.some h) hrefresh
        exact ⟨none, hnone, .none⟩
      · next hfresh =>
        rw [if_neg hfresh]
        obtain rfl := Option.some.inj hrefresh
        exact ⟨some c', rfl, .some h⟩

/-- All candidates, at every depth of brackets, are looked at again with the same results. -/
theorem exists_mapM_refresh
    (h : List.Forall₂ (CandidatesAbreast m d pre pre' p p') os os')
    (hrefresh : os.mapM (refresh p) = some os₁) :
    ∃ os₁', os'.mapM (refresh p') = some os₁' ∧
      List.Forall₂ (CandidatesAbreast m d pre pre' p p') os₁ os₁' := by
  induction h generalizing os₁ with
  | nil =>
      obtain rfl := Option.some.inj hrefresh
      exact ⟨[], rfl, .nil⟩
  | cons h _ ih =>
      rw [List.mapM_cons] at hrefresh
      obtain ⟨o₁, ho₁, hrefresh⟩ := Option.bind_eq_some_iff.mp hrefresh
      obtain ⟨os₂, hos₂, hrefresh⟩ := Option.bind_eq_some_iff.mp hrefresh
      obtain rfl := Option.some.inj hrefresh
      obtain ⟨o₁', ho₁', hfirst⟩ := h.refresh ho₁
      obtain ⟨os₂', hos₂', hothers⟩ := ih hos₂
      refine ⟨o₁' :: os₂', ?_, .cons hfirst hothers⟩
      rw [List.mapM_cons, ho₁', hos₂']
      rfl

/-! ### Steps of both scanners -/

namespace Abreast

/-- Both scanners are between brackets, or neither is. -/
theorem inFlow (h : Abreast m d pre pre' s s') : s'.inFlow = s.inFlow := by
  have hlength := h.outer.length_eq
  unfold Scanner.inFlow
  cases hs : s.outer <;> cases hs' : s'.outer <;> simp_all

/-- The least column of a further line is deeper by the depth. -/
theorem leastColumn (h : Abreast m d pre pre' s s') : s'.leastColumn = s.leastColumn + d := by
  obtain ⟨columns, hcolumns, -⟩ := h.columns
  unfold Scanner.leastColumn
  rw [h.columns_eq, hcolumns]
  cases columns <;> simp <;> omega

/-- The column of the innermost collection, from which those of a block are counted. -/
theorem base (h : Abreast m d pre pre' s s') :
    s'.columns.head?.getD 0 = s.columns.head?.getD 0 + d ∧
      (s.columns.head?.getD 0 < m → s.columns = [0]) := by
  obtain ⟨columns, hcolumns, hall⟩ := h.columns
  rw [h.columns_eq, hcolumns]
  cases columns with
  | nil => simp
  | cons column columns =>
      have hle := hall column List.mem_cons_self
      exact ⟨rfl, fun hlt => absurd hlt (Nat.not_lt.mpr hle)⟩

/-- There is a least column, as a collection is open. -/
theorem leastColumn_pos (h : Abreast m d pre pre' s s') : 0 < s.leastColumn := by
  obtain ⟨columns, hcolumns, -⟩ := h.columns
  rw [Scanner.leastColumn, hcolumns]
  cases columns <;> exact Nat.succ_pos _

/-- Both scanners move on. -/
theorem move (h : Abreast m d pre pre' s s') (hrest : Deeper m d q cs q' cs')
    (hmove : Alike s.position q s'.position q') :
    Abreast m d pre pre' { s with rest := cs, position := q }
      { s' with rest := cs', position := q' } :=
  ⟨hrest, h.tokens, h.columns, h.columns_eq, h.keyAllowed, h.candidate.move hmove,
    h.outer.imp fun _ _ ho => ho.move hmove⟩

/-- Both scanners pass over some characters on the same line. -/
theorem skip (h : Abreast m d pre pre' s s') {w : List Char} (hw : ∀ c ∈ w, isBreak c = false)
    (hrest : s.rest = w ++ cs) :
    Abreast m d pre pre' (s.skip w.length) (s'.skip w.length) := by
  obtain ⟨cs', hrest', hdeeper⟩ := (hrest ▸ h.rest).skip hw
  have hskip : ∀ {s : Scanner} {cs : List Char}, s.rest = w ++ cs →
      s.skip w.length = { s with rest := cs, position := s.position.skip w } := by
    intro s cs hrest
    simp [Scanner.skip, hrest]
  rw [hskip hrest, hskip hrest']
  exact h.move hdeeper (.skip s.position s'.position w)

/-- Both scanners may be told whether a key can follow. -/
theorem allowKey (h : Abreast m d pre pre' s s') (allowed : Bool) :
    Abreast m d pre pre' (s.allowKey allowed) (s'.allowKey allowed) :=
  ⟨h.rest, h.tokens, h.columns, h.columns_eq, rfl, h.candidate, h.outer⟩

/-- Both scanners may get the same token. -/
theorem push (h : Abreast m d pre pre' s s') (t : YamlToken) :
    Abreast m d pre pre' (s.push t) (s'.push t) := by
  obtain ⟨ts, hts, hts'⟩ := h.tokens
  refine ⟨h.rest, ⟨ts ++ [t], ?_, ?_⟩, h.columns, h.columns_eq, h.keyAllowed, h.candidate, h.outer⟩
  · simp [Scanner.push, hts]
  · simp [Scanner.push, hts']

/-- Both scanners may give up their candidates. -/
theorem withoutCandidate (h : Abreast m d pre pre' s s') :
    Abreast m d pre pre' { s with candidate := none } { s' with candidate := none } :=
  ⟨h.rest, h.tokens, h.columns, h.columns_eq, h.keyAllowed, .none, h.outer⟩

/-- A token is put into an array of tokens as it is into the list of them. -/
theorem toList_insertIdxIfInBounds (tokens : Array YamlToken) (k : Nat) (t : YamlToken) :
    (tokens.insertIdxIfInBounds k t).toList = tokens.toList.insertIdx k t := by
  unfold Array.insertIdxIfInBounds
  split
  · exact Array.toList_insertIdx _
  · next hlt => exact (List.insertIdx_of_length_lt (by simpa using hlt)).symm

/-- A token behind some first ones is put among those behind them. -/
theorem insertIdx_length_add (pre ts : List YamlToken) (k : Nat) (t : YamlToken) :
    (pre ++ ts).insertIdx (pre.length + k) t = pre ++ ts.insertIdx k t := by
  induction pre with
  | nil => simp
  | cons t' pre ih =>
      rw [List.length_cons, Nat.succ_add]
      simp [ih]

/-- A token is put in front of others. -/
theorem insert (h : Abreast m d pre pre' s s') (k : Nat) (t : YamlToken) :
    Abreast m d pre pre'
      { s with tokens := s.tokens.insertIdxIfInBounds (pre.length + k) t }
      { s' with tokens := s'.tokens.insertIdxIfInBounds (pre'.length + k) t } := by
  obtain ⟨ts, hts, hts'⟩ := h.tokens
  refine ⟨h.rest, ⟨ts.insertIdx k t, ?_, ?_⟩, h.columns, h.columns_eq, h.keyAllowed, h.candidate,
    h.outer⟩
  · rw [toList_insertIdxIfInBounds, hts, insertIdx_length_add]
  · rw [toList_insertIdxIfInBounds, hts', insertIdx_length_add]

/-- The tokens are equally many behind those in front. -/
theorem exists_size_eq (h : Abreast m d pre pre' s s') :
    ∃ k, s.tokens.size = pre.length + k ∧ s'.tokens.size = pre'.length + k := by
  obtain ⟨ts, hts, hts'⟩ := h.tokens
  refine ⟨ts.length, ?_, ?_⟩
  · rw [← Array.length_toList, hts, List.length_append]
  · rw [← Array.length_toList, hts', List.length_append]

/-- Both scanners may open a collection, the second one deeper by the depth. -/
theorem openBlock (h : Abreast m d pre pre' s s') {column column' : Nat} (hle : m ≤ column)
    (hcolumn : column' = column + d) (k : Nat) (t : YamlToken) :
    Abreast m d pre pre' (s.openBlock column (pre.length + k) t)
      (s'.openBlock column' (pre'.length + k) t) := by
  have hopens : (!s'.inFlow && s'.isDeeper column') = (!s.inFlow && s.isDeeper column) := by
    rw [h.inFlow, isDeeper, isDeeper, h.columns_eq, hcolumn]
    cases s.columns <;> simp
  unfold Scanner.openBlock
  rw [hopens]
  split
  · obtain ⟨hrest, htokens, -, -, hallowed, hcandidate, houter⟩ := h.insert k t
    obtain ⟨columns, hcolumns, hall⟩ := h.columns
    refine ⟨hrest, htokens, ⟨column :: columns, ?_, ?_⟩, ?_, hallowed, hcandidate, houter⟩
    · exact congrArg (column :: ·) hcolumns
    · exact List.forall_mem_cons.mpr ⟨hle, hall⟩
    · simp [h.columns_eq, hcolumn]
  · exact h

/-- At a further token both scanners close the same collections, but not the outermost one. -/
theorem closeDeeper (h : Abreast m d pre pre' s s')
    (hcolumn : s'.position.column = s.position.column + d) :
    Abreast m d pre pre' s.closeDeeper s'.closeDeeper := by
  -- the same number of blocks is closed, since all columns are moved alike
  have hcloses : (s'.columns.takeWhile (s'.position.column < ·)).length =
      (s.columns.takeWhile (s.position.column < ·)).length := by
    have hless : ((s'.position.column < ·) ∘ (· + d) : Nat → Bool) =
        (s.position.column < · : Nat → Bool) := by
      funext column
      simp [hcolumn]
    rw [h.columns_eq, List.takeWhile_map, List.length_map, hless]
  unfold Scanner.closeDeeper
  rw [h.inFlow, hcloses]
  split
  · exact h
  generalize hn : (s.columns.takeWhile (s.position.column < ·)).length = n
  obtain ⟨columns, hcolumns, hall⟩ := h.columns
  have hle : n ≤ columns.length := by
    rw [← hn, hcolumns, List.takeWhile_append]
    split
    · simp
    · exact (List.takeWhile_sublist _).length_le
  obtain ⟨ts, hts, hts'⟩ := h.tokens
  refine ⟨h.rest, ⟨ts ++ List.replicate n .blockEnd, ?_, ?_⟩, ⟨columns.drop n, ?_, ?_⟩, ?_,
    h.keyAllowed, h.candidate, h.outer⟩
  · simp [closeBlocks, hts]
  · simp [closeBlocks, hts']
  · change s.columns.drop n = _
    rw [hcolumns, List.drop_append_of_le_length hle]
  · exact fun column hmem => hall column (List.mem_of_mem_drop hmem)
  · change s'.columns.drop n = (s.columns.drop n).map (· + d)
    rw [h.columns_eq, List.map_drop]

/-- If the first scanner can give up its candidate, so can the second one. -/
theorem dropCandidate (h : Abreast m d pre pre' s s') (hdrop : s.dropCandidate = some s₁) :
    ∃ s₁', s'.dropCandidate = some s₁' ∧ Abreast m d pre pre' s₁ s₁' := by
  obtain ⟨o₁, hwithdraw, hdrop⟩ := Option.bind_eq_some_iff.mp hdrop
  obtain rfl := Option.some.inj hdrop
  obtain ⟨rfl, hnone⟩ := h.candidate.withdraw hwithdraw
  refine ⟨{ s' with candidate := none }, ?_, h.withoutCandidate⟩
  rw [Scanner.dropCandidate, hnone]
  rfl

/-- If the first scanner can take its position for a candidate, so can the second one. -/
theorem saveCandidate (h : Abreast m d pre pre' s s') (hle : m ≤ s.position.column)
    (hcolumn : s'.position.column = s.position.column + d) (hsave : s.saveCandidate = some s₁) :
    ∃ s₁', s'.saveCandidate = some s₁' ∧ Abreast m d pre pre' s₁ s₁' := by
  unfold Scanner.saveCandidate at hsave ⊢
  rw [h.keyAllowed]
  split at hsave
  · next hallowed =>
    rw [if_pos hallowed]
    obtain ⟨s₂, hs₂, hsave⟩ := Option.bind_eq_some_iff.mp hsave
    obtain rfl := Option.some.inj hsave
    obtain ⟨s₂', hs₂', h₂⟩ := h.dropCandidate hs₂
    obtain rfl := eq_of_dropCandidate hs₂
    obtain rfl := eq_of_dropCandidate hs₂'
    rw [hs₂']
    refine ⟨_, rfl, ⟨h.rest, h.tokens, h.columns, h.columns_eq, h.keyAllowed, .some ?_, h.outer⟩⟩
    have hrequired : (s'.columns.head? == some s'.position.column) =
        (s.columns.head? == some s.position.column) := by
      rw [h.columns_eq, hcolumn]
      cases s.columns <;> simp
    refine ⟨h.exists_size_eq, hle, hcolumn, ?_, .refl _ _⟩
    change (!s'.inFlow && _) = (!s.inFlow && _)
    rw [h.inFlow, hrequired]
  · next hallowed =>
    rw [if_neg hallowed]
    obtain rfl := Option.some.inj hsave
    exact ⟨s', rfl, h⟩

/-- Both scanners may pass the gap in front of a token. -/
theorem passGap (h : Abreast m d pre pre' s s') (hm : 0 < m) :
    Abreast m d pre pre' s.passGap s'.passGap := by
  obtain ⟨hallowed, hrest, hmove⟩ := h.rest.passFrom hm s.inFlow s.keyAllowed false
  unfold Scanner.passGap
  rw [h.inFlow, h.keyAllowed]
  have hpass := (h.move hrest hmove).allowKey
    (Scanner.passFrom s.inFlow s.keyAllowed false s.position s.rest).1
  simp only [hallowed]
  exact hpass

/-- If the first scanner can look at its candidates again, so can the second one. -/
theorem refreshAll (h : Abreast m d pre pre' s s') (hrefresh : s.refreshAll = some s₁) :
    ∃ s₁', s'.refreshAll = some s₁' ∧ Abreast m d pre pre' s₁ s₁' := by
  obtain ⟨o₁, ho₁, hrefresh⟩ := Option.bind_eq_some_iff.mp hrefresh
  obtain ⟨os₁, hos₁, hrefresh⟩ := Option.bind_eq_some_iff.mp hrefresh
  obtain rfl := Option.some.inj hrefresh
  obtain ⟨o₁', ho₁', hcandidate⟩ := h.candidate.refresh ho₁
  obtain ⟨os₁', hos₁', houter⟩ := exists_mapM_refresh h.outer hos₁
  refine ⟨{ s' with candidate := o₁', outer := os₁' }, ?_,
    ⟨h.rest, h.tokens, h.columns, h.columns_eq, h.keyAllowed, hcandidate, houter⟩⟩
  rw [Scanner.refreshAll, ho₁', hos₁']
  rfl

/-- Both scanners read a token that stands on their line. -/
theorem token (h : Abreast m d pre pre' s s') {w : List Char} (hw : ∀ c ∈ w, isBreak c = false)
    (hrest : s.rest = w ++ cs) (allowed : Bool) (t : YamlToken) :
    Abreast m d pre pre' (((s.skip w.length).allowKey allowed).push t)
      (((s'.skip w.length).allowKey allowed).push t) :=
  ((h.skip hw hrest).allowKey allowed).push t

/-- Both scanners take over a scalar. -/
theorem pushScalar (h : Abreast m d pre pre' s s') {l l' : Lexeme}
    (hl : Lexeme.Deeper m d s.position s'.position l l') (style : Style) (allowed : Bool) :
    Abreast m d pre pre' (s.pushScalar style l allowed) (s'.pushScalar style l' allowed) := by
  have hpush := ((h.move hl.rest hl.alike).allowKey allowed).push (.scalar style l.text)
  rw [Scanner.pushScalar, Scanner.pushScalar, hl.text]
  exact hpush

end Abreast

/-! ### One token -/

/-- A scanner at its end: a block scalar in the outermost collection was the last token. -/
structure Swallowed (s : Scanner) : Prop where
  rest : s.rest = []
  outer : s.outer = []
  columns : s.columns = [0]
  tokens : ∃ ts style text, s.tokens.toList = ts ++ [YamlToken.scalar style text]

/-- The second scanner can do what the first one does, unless the first one comes to its end with a
block scalar. -/
def Follows (m d : Nat) (pre pre' : List YamlToken) (r r' : Option Scanner) : Prop :=
  ∀ s, r = some s → Swallowed s ∨ ∃ s', r' = some s' ∧ Abreast m d pre pre' s s'

namespace Follows

/-- Where the first scanner fails there is nothing to follow. -/
theorem none {r' : Option Scanner} : Follows m d pre pre' none r' := nofun

/-- Scanners that are abreast follow one another. -/
theorem some (h : Abreast m d pre pre' s s') : Follows m d pre pre' (some s) (some s') := by
  rintro _ ⟨⟩
  exact .inr ⟨s', rfl, h⟩

/-- The second scanner follows the first one if it does so in either branch. -/
theorem ite {r₁ r₁' r₂ r₂' : Option Scanner} {P : Prop} [Decidable P]
    (hthen : P → Follows m d pre pre' r₁ r₁') (helse : ¬P → Follows m d pre pre' r₂ r₂') :
    Follows m d pre pre' (if P then r₁ else r₂) (if P then r₁' else r₂') := by
  split
  · next hP => exact hthen hP
  · next hP => exact helse hP

/-- Behind a scalar that is the same in both texts. -/
theorem scalar {r r' : Option Lexeme} {f f' : Lexeme → Option Scanner}
    (h : ReadsDeeper m d p p' r r')
    (hf : ∀ l l', Lexeme.Deeper m d p p' l l' → Follows m d pre pre' (f l) (f' l')) :
    Follows m d pre pre' (r.bind f) (r'.bind f') := by
  cases h with
  | some h => exact hf _ _ h
  | none => exact none

end Follows

/-- Two scanners that are abreast, in front of a character. -/
structure AtToken (m d : Nat) (pre pre' : List YamlToken) (c : Char) (cs cs' : List Char)
    (s s' : Scanner) : Prop where
  abreast : Abreast m d pre pre' s s'
  rest : s.rest = c :: cs
  rest' : s'.rest = c :: cs'
  isBreak : isBreak c = false
  le : m ≤ s.position.column
  column : s'.position.column = s.position.column + d
  next : Deeper m d (s.position.next c) cs (s'.position.next c) cs'

/-- Scanners that are abreast in front of a character that ends no line are in front of the same
one. -/
theorem Abreast.exists_atToken (h : Abreast m d pre pre' s s') (hrest : s.rest = c :: cs)
    (hbreak : isBreak c = false) : ∃ cs', AtToken m d pre pre' c cs cs' s s' := by
  obtain ⟨cs', hrest', hle, hcolumn, hnext⟩ := (hrest ▸ h.rest).exists_cons hbreak
  exact ⟨cs', h, hrest, hrest', hbreak, hle, hcolumn, hnext⟩

/-- Behind the header of a block scalar: the lines of the block are the same in both texts, or they
extend to the end of the first one. -/
theorem Abreast.lines (h : Abreast m d pre pre' s s') (hm : 0 < m) {b : Block} {n n' : Nat}
    (hn : n ≤ m) (hn' : n' ≤ m + d)
    (hlines : Deeper m d (s.position.indented n) cs (s'.position.indented n') cs')
    (hleast : 0 < b.least) (hwidest : b.widest = 0) (hflow : s.inFlow = false)
    (houtermost : ∀ column ∈ b.indent, column < m → s.columns = [0]) (style : Style) :
    Follows m d pre pre'
      ((readBlock false b (s.position.nextLine '\n') (List.replicate n ' ' ++ cs)).bind
        fun l => some (s.pushScalar style l true))
      ((readBlock false (b.deeper d 0) (s'.position.nextLine '\n')
          (List.replicate n' ' ' ++ cs')).bind
        fun l => some (s'.pushScalar style l true)) := by
  -- either the margin given by the header is within the text, or the block ends with the text
  by_cases hindent : ∀ column ∈ b.indent, m ≤ column
  · have hmargins :
        (s.position.indented n).column ≤ m ∧ (s'.position.indented n').column ≤ m + d := by
      rw [Position.column_indented, Position.column_indented]
      exact ⟨hn, hn'⟩
    have hwidest : max 0 (m + d) = max b.widest m + d := by omega
    rw [Deeper.readBlock_nextLine fun column hmem => Nat.le_trans hn (hindent column hmem),
      Deeper.readBlock_nextLine (Deeper.le_of_mem_indent hindent hn')]
    refine .scalar ((Alike.indented s.position s'.position n n').readsDeeper
      (hlines.readBlock hindent hleast hwidest fun _ => .inr hmargins)) fun l l' hl => ?_
    exact .some (h.pushScalar hl _ _)
  · simp only [not_forall, Nat.not_le] at hindent
    obtain ⟨k, hk, hlt⟩ := hindent
    intro s₂ hs₂
    obtain ⟨l, hread, hs₂⟩ := Option.bind_eq_some_iff.mp hs₂
    obtain rfl := Option.some.inj hs₂
    refine .inl ⟨hlines.rest_eq_nil_of_nextLine hk hlt hread, ?_, houtermost k hk hlt,
      s.tokens.toList, style, l.text, by simp [Scanner.pushScalar, Scanner.push]⟩
    change s.outer = []
    simpa [Scanner.inFlow] using hflow

namespace AtToken

/-- The character stays in front of the scanners as long as they do not read it. -/
theorem of_abreast (h : AtToken m d pre pre' c cs cs' s s') (h₁ : Abreast m d pre pre' s₁ s₁')
    (hrest : s₁.rest = s.rest) (hrest' : s₁'.rest = s'.rest) :
    AtToken m d pre pre' c cs cs' s₁ s₁' := by
  obtain ⟨cs'', h₂⟩ := h₁.exists_atToken (hrest.trans h.rest) h.isBreak
  obtain rfl : cs'' = cs' := (List.cons.inj (h₂.rest'.symm.trans (hrest'.trans h.rest'))).2
  exact h₂

/-- The second scanner follows if it does so once the positions are candidates. -/
theorem saveCandidate (h : AtToken m d pre pre' c cs cs' s s') {f f' : Scanner → Option Scanner}
    (hf : ∀ s₁ s₁', AtToken m d pre pre' c cs cs' s₁ s₁' → Follows m d pre pre' (f s₁) (f' s₁')) :
    Follows m d pre pre' (s.saveCandidate.bind f) (s'.saveCandidate.bind f') := by
  intro s₂ hs₂
  obtain ⟨s₁, hs₁, hs₂⟩ := Option.bind_eq_some_iff.mp hs₂
  obtain ⟨s₁', hs₁', h₁⟩ := h.abreast.saveCandidate h.le h.column hs₁
  rw [hs₁']
  exact hf s₁ s₁' (h.of_abreast h₁ (rest_eq_of_saveCandidate hs₁) (rest_eq_of_saveCandidate hs₁'))
    s₂ hs₂

/-- The second scanner follows if it does so once the candidates are given up. -/
theorem dropCandidate (h : AtToken m d pre pre' c cs cs' s s') {f f' : Scanner → Option Scanner}
    (hf : ∀ s₁ s₁', AtToken m d pre pre' c cs cs' s₁ s₁' → s₁.inFlow = s.inFlow →
      Follows m d pre pre' (f s₁) (f' s₁')) :
    Follows m d pre pre' (s.dropCandidate.bind f) (s'.dropCandidate.bind f') := by
  intro s₂ hs₂
  obtain ⟨s₁, hs₁, hs₂⟩ := Option.bind_eq_some_iff.mp hs₂
  obtain ⟨s₁', hs₁', h₁⟩ := h.abreast.dropCandidate hs₁
  have hflow : s₁.inFlow = s.inFlow := by
    rw [eq_of_dropCandidate hs₁]
    rfl
  rw [hs₁']
  exact hf s₁ s₁'
    (h.of_abreast h₁ (rest_eq_of_dropCandidate hs₁) (rest_eq_of_dropCandidate hs₁')) hflow s₂ hs₂

/-- A collection is opened in front of the character. -/
theorem openBlock (h : AtToken m d pre pre' c cs cs' s s') (t : YamlToken) :
    AtToken m d pre pre' c cs cs' (s.openBlock s.position.column s.tokens.size t)
      (s'.openBlock s'.position.column s'.tokens.size t) := by
  obtain ⟨k, hsize, hsize'⟩ := h.abreast.exists_size_eq
  rw [hsize, hsize']
  exact h.of_abreast (h.abreast.openBlock h.le h.column k t) (rest_openBlock ..) (rest_openBlock ..)

/-- Both scanners go on behind the character. -/
theorem skip (h : AtToken m d pre pre' c cs cs' s s') :
    Abreast m d pre pre' (s.skip 1) (s'.skip 1) :=
  h.abreast.skip (w := [c]) (by simpa using h.isBreak) h.rest

/-- The second scanner follows behind a token of one character. -/
theorem token (h : AtToken m d pre pre' c cs cs' s s') (allowed : Bool) (t : YamlToken) :
    Follows m d pre pre' (some (((s.skip 1).allowKey allowed).push t))
      (some (((s'.skip 1).allowKey allowed).push t)) :=
  .some ((h.skip.allowKey allowed).push t)

/-- The second scanner follows at a bracket that opens. -/
theorem fetchFlowStart (h : AtToken m d pre pre' c cs cs' s s') (t : YamlToken) :
    Follows m d pre pre' (s.fetchFlowStart t) (s'.fetchFlowStart t) := by
  refine h.saveCandidate fun s₁ s₁' h₁ => ?_
  obtain ⟨hrest, htokens, hcolumns, hcolumns', hallowed, hcandidate, houter⟩ := h₁.abreast
  have hopened : Abreast m d pre pre'
      { s₁ with candidate := none, outer := s₁.candidate :: s₁.outer }
      { s₁' with candidate := none, outer := s₁'.candidate :: s₁'.outer } :=
    ⟨hrest, htokens, hcolumns, hcolumns', hallowed, .none, .cons hcandidate houter⟩
  exact (h₁.of_abreast hopened rfl rfl).token true t

/-- The second scanner follows at a bracket that closes. -/
theorem fetchFlowEnd (h : AtToken m d pre pre' c cs cs' s s') (t : YamlToken) :
    Follows m d pre pre' (s.fetchFlowEnd t) (s'.fetchFlowEnd t) := by
  refine h.dropCandidate fun s₁ s₁' h₁ _ => ?_
  obtain ⟨hrest, htokens, hcolumns, hcolumns', hallowed, -, houter⟩ := h₁.abreast
  cases hs : s₁.outer with
  | nil =>
      rw [hs] at houter
      rw [List.forall₂_nil_left_iff.mp houter]
      exact h₁.token false t
  | cons o os =>
      rw [hs] at houter
      obtain ⟨o', os', ho, hos, hs'⟩ := List.forall₂_cons_left_iff.mp houter
      rw [hs']
      have hclosed : Abreast m d pre pre' { s₁ with candidate := o, outer := os }
          { s₁' with candidate := o', outer := os' } :=
        ⟨hrest, htokens, hcolumns, hcolumns', hallowed, ho, hos⟩
      exact (h₁.of_abreast hclosed rfl rfl).token false t

/-- The second scanner follows at a comma between brackets. -/
theorem fetchFlowEntry (h : AtToken m d pre pre' c cs cs' s s') :
    Follows m d pre pre' s.fetchFlowEntry s'.fetchFlowEntry :=
  h.dropCandidate fun _ _ h₁ _ => h₁.token true .flowEntry

/-- The second scanner follows at the dash of an item. -/
theorem fetchBlockEntry (h : AtToken m d pre pre' c cs cs' s s') :
    Follows m d pre pre' s.fetchBlockEntry s'.fetchBlockEntry := by
  unfold Scanner.fetchBlockEntry
  rw [h.abreast.inFlow, h.abreast.keyAllowed]
  refine .ite (fun _ => .none) fun _ => ?_
  exact (h.openBlock _).dropCandidate fun _ _ h₁ _ => h₁.token true .blockEntry

/-- The second scanner follows at the question mark of a key. -/
theorem fetchKey (h : AtToken m d pre pre' c cs cs' s s') :
    Follows m d pre pre' s.fetchKey s'.fetchKey := by
  unfold Scanner.fetchKey
  rw [h.abreast.inFlow, h.abreast.keyAllowed]
  refine .ite (fun _ => .none) fun _ => (h.openBlock _).dropCandidate fun s₁ s₁' h₁ _ => ?_
  rw [h₁.abreast.inFlow]
  exact h₁.token _ .key

/-- The second scanner follows at the colon of a value. The mark of the key is put at the place of
the candidate, which is the same in both behind the tokens in front. -/
theorem fetchValue (h : AtToken m d pre pre' c cs cs' s s') :
    Follows m d pre pre' s.fetchValue s'.fetchValue := by
  have hcandidate := h.abreast.candidate
  unfold Scanner.fetchValue
  cases ho : s.candidate with
  -- both scanners have a candidate for a key, or neither has one
  | none =>
      rw [ho] at hcandidate
      cases ho' : s'.candidate with
      | some k' =>
          rw [ho'] at hcandidate
          cases hcandidate
      | none =>
          dsimp only
          rw [h.abreast.inFlow, h.abreast.keyAllowed]
          refine .ite (fun _ => .none) fun _ => ?_
          have h₁ := h.openBlock .blockMappingStart
          rw [h₁.abreast.inFlow]
          exact h₁.token _ .value
  | some k =>
      rw [ho] at hcandidate
      cases ho' : s'.candidate with
      | none =>
          rw [ho'] at hcandidate
          cases hcandidate
      | some k' =>
          rw [ho'] at hcandidate
          cases hcandidate with
          | some hk =>
              obtain ⟨j, hplace, hplace'⟩ := hk.token
              dsimp only
              rw [hplace, hplace']
              have h₁ := (h.abreast.insert j .key).withoutCandidate.openBlock hk.le hk.column j
                .blockMappingStart
              exact (h.of_abreast h₁ (rest_openBlock ..) (rest_openBlock ..)).token false .value

/-- What is left behind the first characters of a kind. -/
theorem drop_length_takeWhile (f : Char → Bool) (cs : List Char) :
    cs.drop (cs.takeWhile f).length = cs.dropWhile f := by
  induction cs with
  | nil => rfl
  | cons c cs ih => cases hc : f c <;> simp [hc, ih]

/-- The second scanner follows at an anchor or an alias. -/
theorem fetchName (h : AtToken m d pre pre' c cs cs' s s') (isAlias : Bool) :
    Follows m d pre pre' (s.fetchName isAlias) (s'.fetchName isAlias) := by
  refine h.saveCandidate fun s₁ s₁' h₁ => ?_
  obtain ⟨hname, hbehind⟩ := h₁.next.takeWhile fun _ => isBreak_of_isNameChar
  have hskips : ∀ d ∈ c :: cs.takeWhile isNameChar, Yaml.isBreak d = false :=
    List.forall_mem_cons.mpr ⟨h.isBreak, fun _ hd =>
      isBreak_of_isNameChar (List.mem_takeWhile_imp hd)⟩
  have hrest : s₁.rest = (c :: cs.takeWhile isNameChar) ++ cs.dropWhile isNameChar := by
    rw [h₁.rest, List.cons_append, List.takeWhile_append_dropWhile]
  have h₂ := h₁.abreast.token hskips hrest false
  simp only [h₁.rest, h₁.rest', List.drop_succ_cons, List.drop_zero]
  rw [hname, drop_length_takeWhile, ← hname, drop_length_takeWhile, hname, hbehind.head?_eq]
  refine .ite (fun _ => .none) fun _ => .some (h₂ _)

/-- The second scanner follows at a tag. -/
theorem fetchTag (h : AtToken m d pre pre' c cs cs' s s') :
    Follows m d pre pre' s.fetchTag s'.fetchTag := by
  refine h.saveCandidate fun s₁ s₁' h₁ => ?_
  cases hread : readTag s₁.rest with
  | none => exact .none
  | some r =>
      obtain ⟨handle, suffix, width, rest⟩ := r
      obtain ⟨w, hrest₁, rfl, hw, hlocal⟩ := exists_isTagText hread
      obtain ⟨rest', hrest₁', hdeeper⟩ := (hrest₁ ▸ h₁.abreast.rest).skip hw
      have hread' : readTag s₁'.rest = some (handle, suffix, w.length, rest') := by
        rw [hrest₁']
        exact hlocal rest' hdeeper.head?_eq
      have htake : s₁.rest.take w.length = w := by rw [hrest₁, List.take_left]
      have htake' : s₁'.rest.take w.length = w := by rw [hrest₁', List.take_left]
      simp only [hread', Option.bind_eq_bind, Option.bind_some, htake, htake', hdeeper.head?_eq,
        h₁.abreast.inFlow]
      refine .ite (fun _ => .none) fun _ => .some ?_
      exact ((h₁.abreast.move hdeeper (.skip _ _ w)).allowKey false).push (.tag handle suffix)

/-- The second scanner follows at the header of a block scalar, unless the scalar takes the whole
rest of the text. -/
theorem fetchBlockScalar (h : AtToken m d pre pre' c cs cs' s s') (hm : 0 < m)
    (hflow : s.inFlow = false) (folded : Bool) :
    Follows m d pre pre' (s.fetchBlockScalar folded) (s'.fetchBlockScalar folded) := by
  refine h.dropCandidate fun s₁ s₁' h₁ hflow₁ => ?_
  obtain ⟨hline, -⟩ := h₁.next.takeWhile (f := (!Yaml.isBreak ·)) (by simp)
  simp only [h₁.rest, h₁.rest', List.drop_succ_cons, List.drop_zero, hline]
  cases readBlockHeader (cs.takeWhile (!Yaml.isBreak ·)) with
  | none => exact .none
  | some header =>
      obtain ⟨chomping, indent⟩ := header
      obtain ⟨hbase, houtermost⟩ := h₁.abreast.base
      let b : Block := ⟨folded, chomping, indent.map (s₁.columns.head?.getD 0 + ·), s₁.leastColumn,
        0, [], [], [], false⟩
      have hb : Block.mk folded chomping (indent.map (s₁'.columns.head?.getD 0 + ·))
          s₁'.leastColumn 0 [] [] [] false = b.deeper d 0 := by
        simp only [hbase, h₁.abreast.leastColumn, b, Block.deeper, Option.map_map,
          Function.comp_def, Nat.add_right_comm]
      have houtermost : ∀ column ∈ b.indent, column < m → s₁.columns = [0] := by
        intro column hcolumn hlt
        obtain ⟨k, -, rfl⟩ := Option.map_eq_some_iff.mp hcolumn
        exact houtermost (Nat.lt_of_le_of_lt (Nat.le_add_right _ k) hlt)
      -- both scanners are at the end of the line of the header
      have hskips : ∀ d ∈ c :: cs.takeWhile (!Yaml.isBreak ·), Yaml.isBreak d = false :=
        List.forall_mem_cons.mpr ⟨h.isBreak, fun _ hd => by simpa using List.mem_takeWhile_imp hd⟩
      have hrest : s₁.rest =
          (c :: cs.takeWhile (!Yaml.isBreak ·)) ++ cs.dropWhile (!Yaml.isBreak ·) := by
        rw [h₁.rest, List.cons_append, List.takeWhile_append_dropWhile]
      have h₂ := h₁.abreast.skip hskips hrest
      have hrest₂ : (s₁.skip (c :: cs.takeWhile (!Yaml.isBreak ·)).length).rest =
          cs.dropWhile (!Yaml.isBreak ·) := by
        rw [Scanner.skip, hrest, List.drop_left]
      have hstop : ∀ c ∈ (cs.dropWhile (!Yaml.isBreak ·)).head?, Yaml.isBreak c = true := by
        intro c hc
        have hhead := List.head?_dropWhile_not (!Yaml.isBreak ·) cs
        rw [Option.mem_def.mp hc] at hhead
        simpa using hhead
      rw [List.length_cons] at h₂ hrest₂
      have hdeeper := h₂.rest
      simp only [Option.bind_eq_bind, Option.bind_some, hb, hrest₂]
      rw [hrest₂] at hdeeper
      generalize cs.dropWhile (!Yaml.isBreak ·) = rest at hdeeper hstop
      generalize (s₁'.skip ((cs.takeWhile (!Yaml.isBreak ·)).length + 1)).rest = rest' at hdeeper
      cases hdeeper with
      | nil =>
          exact .scalar (.here _ _ (.nil _ _)) fun l l' hl => .some (h₂.pushScalar hl _ true)
      | char hbreak => simp [hstop _ rfl] at hbreak
      | line hn hn' hlines =>
          exact h₂.lines hm hn hn' hlines h₁.abreast.leastColumn_pos rfl (hflow₁.trans hflow)
            houtermost _

/-- The second scanner follows at a quoted scalar. -/
theorem fetchQuoted (h : AtToken m d pre pre' c cs cs' s s') (hm : 0 < m) (single : Bool) :
    Follows m d pre pre' (s.fetchQuoted single) (s'.fetchQuoted single) := by
  refine h.saveCandidate fun s₁ s₁' h₁ => ?_
  have hread := h₁.skip.rest.readQuoted hm single .none .none []
  exact .scalar hread fun l l' hl => .some (h₁.skip.pushScalar hl _ _)

/-- The second scanner follows at a plain scalar. -/
theorem fetchPlain (h : AtToken m d pre pre' c cs cs' s s') (hm : 0 < m) :
    Follows m d pre pre' s.fetchPlain s'.fetchPlain := by
  refine h.saveCandidate fun s₁ s₁' h₁ => ?_
  have hread := h₁.abreast.rest.readPlain hm s₁.inFlow s₁.leastColumn .none []
  rw [← h₁.abreast.leastColumn] at hread
  rw [h₁.abreast.inFlow]
  refine .scalar hread fun l l' hl => ?_
  rw [hl.brokeLine]
  exact .some (h₁.abreast.pushScalar hl _ _)

/-- **One token**: the second scanner reads what the first one reads. -/
theorem fetch (h : AtToken m d pre pre' c cs cs' s s') (hm : 0 < m) :
    Follows m d pre pre' (s.fetch c cs) (s'.fetch c cs') := by
  have hstart : s.position.column ≠ 0 ∧ s'.position.column ≠ 0 := by
    have hle := h.le
    have hcolumn := h.column
    omega
  unfold Scanner.fetch
  simp only [hstart.1, hstart.2, false_and, if_false, h.next.head?_eq, h.abreast.inFlow]
  refine .ite (fun _ => h.fetchFlowStart _) fun _ => .ite (fun _ => h.fetchFlowStart _) fun _ => ?_
  refine .ite (fun _ => h.fetchFlowEnd _) fun _ => .ite (fun _ => h.fetchFlowEnd _) fun _ => ?_
  refine .ite (fun _ => h.fetchFlowEntry) fun _ => .ite (fun _ => h.fetchBlockEntry) fun _ => ?_
  refine .ite (fun _ => h.fetchKey) fun _ => .ite (fun _ => h.fetchValue) fun _ => ?_
  refine .ite (fun _ => h.fetchName true) fun _ => .ite (fun _ => h.fetchName false) fun _ => ?_
  refine .ite (fun _ => h.fetchTag) fun _ => ?_
  refine .ite (fun hflow => h.fetchBlockScalar hm (by simpa using hflow.2) false) fun _ => ?_
  refine .ite (fun hflow => h.fetchBlockScalar hm (by simpa using hflow.2) true) fun _ => ?_
  refine .ite (fun _ => h.fetchQuoted hm true) fun _ => ?_
  refine .ite (fun _ => h.fetchQuoted hm false) fun _ => ?_
  exact .ite (fun _ => h.fetchPlain hm) fun _ => .none

end AtToken

/-! ### Whole texts -/

/-- The tokens of a scanner when all its collections have been closed. -/
def closed (s : Scanner) : List YamlToken :=
  s.tokens.toList ++ if s.inFlow then [] else closing s.columns.length

/-- Closing the deeper collections first and then all of them leaves the tokens of closing all at
once. -/
theorem toList_closeAll_closeDeeper (s : Scanner) :
    s.closeDeeper.closeAll.tokens.toList = s.closed := by
  cases hflow : s.inFlow with
  | true => simp [closed, closeDeeper, closeAll, hflow]
  | false =>
      have hle := (List.takeWhile_sublist (p := (s.position.column < ·)) (l := s.columns)).length_le
      have hdeeper : s.closeDeeper =
          s.closeBlocks (s.columns.takeWhile (s.position.column < ·)).length := by
        simp [closeDeeper, hflow]
      have hall : (s.closeBlocks (s.columns.takeWhile (s.position.column < ·)).length).inFlow =
          false := hflow
      rw [hdeeper, closeAll, hall, closed, hflow]
      simp only [closeBlocks, closing, Bool.false_eq_true, if_false, Array.toList_append,
        Array.toList_replicate, List.append_assoc, List.replicate_append_replicate,
        List.length_drop]
      rw [Nat.add_sub_cancel' hle]

/-- Closing collections does not touch the candidate. -/
theorem candidate_closeAll_closeDeeper (s : Scanner) :
    s.closeDeeper.closeAll.candidate = s.candidate := by
  have hall (s : Scanner) : s.closeAll.candidate = s.candidate := by
    unfold closeAll
    split <;> rfl
  rw [hall]
  unfold closeDeeper
  split <;> rfl

/-- At the end of a text all collections are closed, and no key may be missing. -/
theorem end_eq_some_iff {ts : List YamlToken} :
    (s.closeDeeper.closeAll.dropCandidate.bind fun s => some s.tokens.toList) = some ts ↔
      withdraw s.candidate = some none ∧ ts = s.closed := by
  rw [dropCandidate, candidate_closeAll_closeDeeper]
  cases hcandidate : s.candidate with
  | none => simp [withdraw, toList_closeAll_closeDeeper, eq_comm]
  | some k =>
      cases hrequired : k.required with
      | true => simp [withdraw, hrequired]
      | false => simp [withdraw, hrequired, toList_closeAll_closeDeeper, eq_comm]

/-- Outside of brackets, a scanner at the end of its text comes to its tokens. -/
theorem eq_closed_of_run {fuel : Nat} {ts : List YamlToken} (hrest : s.rest = [])
    (houter : s.outer = []) (h : run fuel s = some ts) : ts = s.closed := by
  cases fuel with
  | zero => cases h
  | succ fuel =>
      have hpass : s.passGap = s := by
        rw [passGap, hrest, passFrom, ← hrest]
      rw [run, hpass] at h
      obtain ⟨s₁, hs₁, h⟩ := Option.bind_eq_some_iff.mp h
      have hrest₁ : s₁.closeDeeper.rest = [] := by
        rw [rest_closeDeeper, rest_eq_of_refreshAll hs₁, hrest]
      simp only [hrest₁] at h
      obtain ⟨-, rfl⟩ := end_eq_some_iff.mp h
      obtain ⟨o, -, hs₁⟩ := Option.bind_eq_some_iff.mp hs₁
      rw [houter] at hs₁
      obtain rfl := Option.some.inj hs₁
      simp [closed, inFlow, houter]

/-- At the end of both texts, the second scanner comes to the same tokens behind its own. -/
theorem Abreast.exists_yields_of_end (h : Abreast m d pre pre' s₁ s₁')
    (hs₁' : s'.passGap.refreshAll = some s₁') (hrest : s₁.closeDeeper.rest = [])
    (hwithdraw : withdraw s₁.candidate = some none) :
    ∃ ts, s₁.closed = pre ++ ts ∧ s'.Yields (some (pre' ++ ts)) := by
  obtain ⟨ts, hts, hts'⟩ := h.tokens
  have hrest' : s₁'.closeDeeper.rest = [] := by
    rw [rest_closeDeeper] at hrest ⊢
    exact (hrest ▸ h.rest).eq_nil
  have hclosed : s₁'.closed =
      pre' ++ (ts ++ if s₁.inFlow then [] else closing s₁.columns.length) := by
    rw [closed, hts', h.inFlow, h.columns_eq, List.length_map, List.append_assoc]
  refine ⟨_, by rw [closed, hts, List.append_assoc], fun fuel hfuel => ?_⟩
  cases fuel with
  | zero => cases hfuel
  | succ fuel =>
      rw [run, hs₁', Option.bind_eq_bind, Option.bind_some]
      simp only [hrest']
      exact end_eq_some_iff.mpr ⟨(h.candidate.withdraw hwithdraw).2, hclosed.symm⟩

/-- **Scanning a deeper text**: the second scanner comes to the same tokens as the first one behind
its own, unless the first one comes to its end with a block scalar. -/
theorem exists_yields_of_abreast (h : Abreast m d pre pre' s s') (hm : 0 < m) {fuel : Nat}
    {ts : List YamlToken} (hrun : run fuel s = some ts) :
    (∃ ts₁, ts = pre ++ ts₁ ∧ s'.Yields (some (pre' ++ ts₁))) ∨
      ∃ ts₁ style text, ts = ts₁ ++ [YamlToken.scalar style text, .blockEnd] := by
  induction fuel generalizing s s' with
  | zero => cases hrun
  | succ fuel ih =>
      -- one round: white space, the candidates for keys, and a token
      rw [run] at hrun
      obtain ⟨s₁, hs₁, hrun⟩ := Option.bind_eq_some_iff.mp hrun
      obtain ⟨s₁', hs₁', h₁⟩ := (h.passGap hm).refreshAll hs₁
      dsimp only at hrun
      split at hrun
      · next hrest =>
        obtain ⟨hwithdraw, rfl⟩ := end_eq_some_iff.mp hrun
        exact .inl (h₁.exists_yields_of_end hs₁' hrest hwithdraw)
      · next c cs hrest =>
        obtain ⟨s₂, hfetch, hrun⟩ := Option.bind_eq_some_iff.mp hrun
        have hrest₁ : s₁.rest = c :: cs := (rest_closeDeeper s₁).symm.trans hrest
        have hbreak : isBreak c = false :=
          isBreak_of_passFrom ((rest_eq_of_refreshAll hs₁).symm.trans hrest₁)
        obtain ⟨cs', htoken⟩ := h₁.exists_atToken hrest₁ hbreak
        have htoken := htoken.of_abreast (h₁.closeDeeper htoken.column) (rest_closeDeeper s₁)
          (rest_closeDeeper s₁')
        -- the second scanner may only be lost behind a scalar at the very end
        rcases htoken.fetch hm s₂ hfetch with hend | ⟨s₂', hfetch', h₂⟩
        · right
          obtain ⟨ts₁, style, text, htokens⟩ := hend.tokens
          refine ⟨ts₁, style, text, ?_⟩
          rw [eq_closed_of_run hend.rest hend.outer hrun, closed, htokens, hend.columns,
            Scanner.inFlow, hend.outer]
          simp [closing]
        · refine (ih h₂ hrun).imp_left ?_
          rintro ⟨ts₁, hts, hyields⟩
          refine ⟨ts₁, hts, .of_fetch hs₁' htoken.rest' hfetch' ?_ hyields⟩
          have hle := (advances_of_fetch htoken.rest' hfetch').rest.length_le
          have hle' := (rest_suffix_of_round hs₁').length_le
          rw [htoken.rest', List.length_cons] at hle'
          omega

end Scanner

end AgentPipeline.Yaml
