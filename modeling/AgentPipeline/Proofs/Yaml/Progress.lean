import AgentPipeline.Proofs.Yaml.Scan

/-!
# Progress of the scanner

Every round of the scanner reads at least one character. So it does not depend on the fuel what
the scanner comes to, as long as the fuel exceeds what there is to read (`exists_yields`).

Nor does a round change the tokens that are settled. A key is known only from its colon, and then
its mark is put in front of the candidate; where no candidate is left, all tokens so far are
settled (`Settled`) and are the first ones of the document (`Yields.prefix`).
-/

namespace AgentPipeline.Yaml

variable {c : Char} {cs text : List Char} {l : Lexeme} {p : Position} {flow : Bool} {least : Nat}

/-! ### What the readers of scalars leave -/

/-- What is left behind a plain scalar is the end of what was there. -/
theorem rest_suffix_of_readPlain {gap : Gap} (h : readPlain flow least gap text p cs = some l) :
    l.rest <:+ cs := by
  fun_induction readPlain flow least gap text p cs
  all_goals grind [List.suffix_cons, List.IsSuffix.trans]

/-- What is left behind a quoted scalar is the end of what was there. -/
theorem rest_suffix_of_readQuoted {single : Bool} {escape : Escape} {gap : Gap}
    (h : readQuoted single escape gap text p cs = some l) : l.rest <:+ cs := by
  fun_induction readQuoted single escape gap text p cs
  all_goals grind [List.suffix_cons, List.IsSuffix.trans]

/-- What is left behind a block scalar is the end of what was there. -/
theorem rest_suffix_of_readBlock {inLine : Bool} {b : Block}
    (h : readBlock inLine b p cs = some l) : l.rest <:+ cs := by
  fun_induction readBlock inLine b p cs
  all_goals grind [List.suffix_cons, List.IsSuffix.trans]

namespace Scanner

variable {s s₁ s₂ : Scanner} {t : YamlToken} {ts ts' : List YamlToken}

/-- What is left behind white space, comments and line ends is the end of what was there. -/
theorem rest_suffix_passFrom (flow allowed comment : Bool) (p : Position) (cs : List Char) :
    (passFrom flow allowed comment p cs).2.2 <:+ cs := by
  fun_induction passFrom flow allowed comment p cs
  all_goals grind [List.suffix_cons, List.IsSuffix.trans]

/-- What is left behind the characters of a URI is the end of what was there. -/
theorem rest_suffix_of_readUri {verbatim : Bool} {r : List UInt8 × Nat × List Char}
    (h : readUri verbatim cs = some r) : r.2.2 <:+ cs := by
  obtain ⟨uri, -, h⟩ := Option.bind_eq_some_iff.mp h
  exact Option.some.inj h ▸ List.dropWhile_suffix _

/-- What is left behind a tag is the end of what stood behind its exclamation mark. -/
theorem rest_suffix_of_readTag {r : String × List UInt8 × Nat × List Char}
    (h : readTag (c :: cs) = some r) : r.2.2.2 <:+ cs := by
  unfold readTag at h
  split at h
  · next heq =>
    obtain ⟨⟨uri, width, rest⟩, huri, h⟩ := Option.bind_eq_some_iff.mp h
    grind [rest_suffix_of_readUri huri, List.suffix_cons, List.IsSuffix.trans]
  · next heq =>
    obtain ⟨rfl, rfl⟩ := List.cons.inj heq
    have hname := List.dropWhile_suffix isNameChar (l := cs)
    split at h
    · obtain ⟨⟨uri, width, rest⟩, huri, h⟩ := Option.bind_eq_some_iff.mp h
      grind [rest_suffix_of_readUri huri, List.suffix_cons, List.IsSuffix.trans]
    · obtain ⟨⟨uri, width, rest⟩, huri, h⟩ := Option.bind_eq_some_iff.mp h
      grind [rest_suffix_of_readUri huri, List.suffix_cons, List.IsSuffix.trans]
  · cases h

/-- A plain scalar holds at least the character that it starts with. -/
theorem rest_suffix_of_startsPlain
    (hmark : ¬(p.column = 0 ∧ isDocumentMark (c :: cs) = true)) (hflow : isFlowEnd c = false)
    (hstarts : startsPlain flow c cs.head? = true)
    (h : readPlain flow least .none [] p (c :: cs) = some l) : l.rest <:+ cs := by
  have hgoes : isBlankOrBreak c = false ∧ ¬(c = ':' ∧ endsWord cs.head? = true) := by
    simp only [startsPlain, Bool.or_eq_true, Bool.and_eq_true, Bool.not_eq_true',
      Bool.or_eq_false_iff, beq_iff_eq] at hstarts
    rcases hstarts with (⟨hblank, hindicator⟩ | ⟨rfl, -⟩) | ⟨⟨-, rfl | rfl⟩, hnext⟩
    · refine ⟨hblank, ?_⟩
      rintro ⟨rfl, -⟩
      cases hindicator
    · exact ⟨by decide, nofun⟩
    · exact ⟨by decide, nofun⟩
    · exact ⟨by decide, by simp [hnext]⟩
  obtain ⟨hblank, hcolon⟩ := hgoes
  have hends : endsPlain flow c cs.head? = false := by
    simpa [endsPlain, hflow] using hcolon
  simp only [isBlankOrBreak, Bool.or_eq_false_iff] at hblank
  simp [readPlain, hblank, isSpaceOrTab, Gap.isBroken, Gap.isEmpty, hmark, hends] at h
  exact rest_suffix_of_readPlain h.2

/-! ### Candidates -/

/-- Giving up the candidate changes nothing else. -/
theorem eq_of_dropCandidate (h : s.dropCandidate = some s₁) :
    s₁ = { s with candidate := none } := by
  obtain ⟨o, hwithdraw, h⟩ := Option.bind_eq_some_iff.mp h
  obtain rfl : o = none := by
    unfold withdraw at hwithdraw
    grind
  exact (Option.some.inj h).symm

/-- Where a key may start the place becomes the candidate, and nothing else changes. -/
theorem eq_or_of_saveCandidate (h : s.saveCandidate = some s₁) : s₁ = s ∨
    ∃ required, s₁ = { s with candidate := some ⟨s.tokens.size, s.position, required⟩ } := by
  unfold saveCandidate at h
  split at h
  · obtain ⟨s', hs', h⟩ := Option.bind_eq_some_iff.mp h
    obtain rfl := eq_of_dropCandidate hs'
    exact .inr ⟨_, (Option.some.inj h).symm⟩
  · exact .inl (Option.some.inj h).symm

/-- Keeping a candidate reads nothing. -/
theorem rest_eq_of_saveCandidate (h : s.saveCandidate = some s₁) : s₁.rest = s.rest := by
  rcases eq_or_of_saveCandidate h with rfl | ⟨required, rfl⟩ <;> rfl

/-- A candidate that is looked at again stays or is given up. -/
theorem eq_or_of_refresh {o o' : Option Candidate} (h : refresh p o = some o') :
    o' = o ∨ o' = none := by
  unfold refresh withdraw at h
  grind

/-- Candidates that are looked at again come from those that were there. -/
theorem mem_of_mapM_refresh {os os' : List (Option Candidate)}
    (h : os.mapM (refresh p) = some os') : ∀ o ∈ os', o ∈ os ∨ o = none := by
  induction os generalizing os' with
  | nil =>
      obtain rfl := Option.some.inj h
      nofun
  | cons o os ih =>
      rw [List.mapM_cons] at h
      obtain ⟨o', ho', h⟩ := Option.bind_eq_some_iff.mp h
      obtain ⟨os'', hos'', h⟩ := Option.bind_eq_some_iff.mp h
      obtain rfl := Option.some.inj h
      grind [eq_or_of_refresh ho', ih hos'']

/-! ### Settled tokens -/

/-- Some first tokens are settled: no candidate stands in front of their end. -/
structure Settled (ts : List YamlToken) (s : Scanner) : Prop where
  tokens : ts <+: s.tokens.toList
  candidates : ∀ o ∈ s.candidate :: s.outer, ∀ candidate ∈ o, ts.length ≤ candidate.token

/-- A token that is put behind the first ones leaves them the first ones. -/
theorem prefix_insertIdx {n : Nat} (h : ts <+: ts') (hn : ts.length ≤ n) :
    ts <+: ts'.insertIdx n t := by
  induction ts generalizing ts' n with
  | nil => exact List.nil_prefix
  | cons t' ts ih =>
      obtain ⟨ts', rfl, hts⟩ := List.cons_prefix_iff.mp h
      obtain ⟨n, rfl⟩ := Nat.exists_eq_add_of_le' (Nat.le_trans (Nat.le_add_left 1 _) hn)
      exact (List.prefix_cons_inj t').mpr (ih hts (Nat.le_of_succ_le_succ hn))

namespace Settled

/-- A token at the end leaves the settled tokens settled. -/
theorem push (h : Settled ts s) (t : YamlToken) : Settled ts (s.push t) :=
  ⟨by simpa [Scanner.push] using h.tokens.trans (List.prefix_append _ _), h.candidates⟩

/-- A token that is put behind the settled ones leaves them settled. -/
theorem insert (h : Settled ts s) {place : Nat} (hplace : ts.length ≤ place) (t : YamlToken) :
    Settled ts { s with tokens := s.tokens.insertIdxIfInBounds place t } := by
  refine ⟨?_, h.candidates⟩
  dsimp only
  unfold Array.insertIdxIfInBounds
  split
  · rw [Array.toList_insertIdx]
    exact prefix_insertIdx h.tokens hplace
  · exact h.tokens

/-- There are at least as many tokens as settled ones. -/
theorem length_le (h : Settled ts s) : ts.length ≤ s.tokens.size := h.tokens.length_le

/-- The ends of block collections stand behind the settled tokens. -/
theorem closeBlocks (h : Settled ts s) (n : Nat) : Settled ts (s.closeBlocks n) :=
  ⟨by simpa [Scanner.closeBlocks] using h.tokens.trans (List.prefix_append _ _), h.candidates⟩

/-- The ends of all block collections stand behind the settled tokens. -/
theorem closeAll (h : Settled ts s) : Settled ts s.closeAll := by
  unfold Scanner.closeAll
  split
  · exact h
  · exact h.closeBlocks _

/-- The ends of the block collections that lie deeper stand behind the settled tokens. -/
theorem closeDeeper (h : Settled ts s) : Settled ts s.closeDeeper := by
  unfold Scanner.closeDeeper
  split
  · exact h
  · exact h.closeBlocks _

/-- The start of a block collection stands behind the settled tokens, wherever it is put behind
them. -/
theorem openBlock (h : Settled ts s) {place : Nat} (hplace : ts.length ≤ place) (column : Nat)
    (t : YamlToken) : Settled ts (s.openBlock column place t) := by
  unfold Scanner.openBlock
  split
  · obtain ⟨htokens, hcandidates⟩ := h.insert hplace t
    exact ⟨htokens, hcandidates⟩
  · exact h

/-- With fewer candidates no settled token is unsettled. -/
theorem withoutCandidate (h : Settled ts s) : Settled ts { s with candidate := none } :=
  ⟨h.tokens, by
    rw [List.forall_mem_cons]
    exact ⟨nofun, (List.forall_mem_cons.mp h.candidates).2⟩⟩

/-- Settled tokens stay when the candidate is given up. -/
theorem dropCandidate (h : Settled ts s) (hdrop : s.dropCandidate = some s₁) :
    Settled ts s₁ := by
  rw [eq_of_dropCandidate hdrop]
  exact h.withoutCandidate

/-- Settled tokens stay when a place behind them becomes the candidate. -/
theorem saveCandidate (h : Settled ts s) (hsave : s.saveCandidate = some s₁) :
    Settled ts s₁ := by
  rcases eq_or_of_saveCandidate hsave with rfl | ⟨required, rfl⟩
  · exact h
  · refine ⟨h.tokens, List.forall_mem_cons.mpr ⟨?_, (List.forall_mem_cons.mp h.candidates).2⟩⟩
    rintro _ ⟨⟩
    exact h.length_le

/-- Settled tokens stay when all candidates are looked at again. -/
theorem refreshAll (h : Settled ts s) (hrefresh : s.refreshAll = some s₁) : Settled ts s₁ := by
  obtain ⟨o, ho, hrefresh⟩ := Option.bind_eq_some_iff.mp hrefresh
  obtain ⟨os, hos, hrefresh⟩ := Option.bind_eq_some_iff.mp hrefresh
  obtain rfl := Option.some.inj hrefresh
  refine ⟨h.tokens, ?_⟩
  have hcandidates := h.candidates
  grind [eq_or_of_refresh ho, mem_of_mapM_refresh hos]

end Settled

/-! ### One round -/

/-- What is read at a character: some token, or nothing. -/
inductive Fetches (s : Scanner) (c : Char) (cs : List Char) : Option Scanner → Prop
  | directive : Fetches s c cs s.fetchDirective
  | documentMark (t : YamlToken) : Fetches s c cs (s.fetchDocumentMark t)
  | flowStart (t : YamlToken) : Fetches s c cs (s.fetchFlowStart t)
  | flowEnd (t : YamlToken) : Fetches s c cs (s.fetchFlowEnd t)
  | flowEntry : Fetches s c cs s.fetchFlowEntry
  | blockEntry : Fetches s c cs s.fetchBlockEntry
  | key : Fetches s c cs s.fetchKey
  | value : Fetches s c cs s.fetchValue
  | name (isAlias : Bool) : Fetches s c cs (s.fetchName isAlias)
  | tag : Fetches s c cs s.fetchTag
  | blockScalar (folded : Bool) : Fetches s c cs (s.fetchBlockScalar folded)
  | quoted (single : Bool) : Fetches s c cs (s.fetchQuoted single)
  | plain (hmark : ¬(s.position.column = 0 ∧ isDocumentMark (c :: cs) = true))
      (hflow : isFlowEnd c = false) (hstarts : startsPlain s.inFlow c cs.head? = true) :
      Fetches s c cs s.fetchPlain
  | nothing : Fetches s c cs none

/-- What is read at a character is read by one of the readers of tokens, under the condition that
leads to it. -/
theorem fetches (s : Scanner) (c : Char) (cs : List Char) : Fetches s c cs (s.fetch c cs) := by
  unfold fetch
  refine iteInduction (fun _ => .directive) fun _ => ?_
  refine iteInduction (fun _ => .documentMark _) fun hmark => ?_
  refine iteInduction (fun _ => .flowStart _) fun hsquare => ?_
  refine iteInduction (fun _ => .flowStart _) fun hcurly => ?_
  refine iteInduction (fun _ => .flowEnd _) fun hsquare' => ?_
  refine iteInduction (fun _ => .flowEnd _) fun hcurly' => ?_
  refine iteInduction (fun _ => .flowEntry) fun hcomma => ?_
  refine iteInduction (fun _ => .blockEntry) fun _ => ?_
  refine iteInduction (fun _ => .key) fun _ => ?_
  refine iteInduction (fun _ => .value) fun _ => ?_
  refine iteInduction (fun _ => .name _) fun _ => ?_
  refine iteInduction (fun _ => .name _) fun _ => ?_
  refine iteInduction (fun _ => .tag) fun _ => ?_
  refine iteInduction (fun _ => .blockScalar _) fun _ => ?_
  refine iteInduction (fun _ => .blockScalar _) fun _ => ?_
  refine iteInduction (fun _ => .quoted _) fun _ => ?_
  refine iteInduction (fun _ => .quoted _) fun _ => ?_
  refine iteInduction (fun hstarts => .plain hmark ?_ hstarts) fun _ => .nothing
  simp [isFlowEnd, hsquare, hcurly, hsquare', hcurly', hcomma]

/-- The scanner goes on to a state where no more than `cs` is left, and settled tokens stay. -/
structure Advances (cs : List Char) (s₁ s₂ : Scanner) : Prop where
  rest : s₂.rest <:+ cs
  settled : ∀ ts, Settled ts s₁ → Settled ts s₂

/-- A token is read from the start of what there is to read. -/
theorem advances_push (hrest : s₁.rest = c :: cs) (h : ∀ ts, Settled ts s → Settled ts s₁)
    (n : Nat) (allowed : Bool) (t : YamlToken) :
    Advances cs s (((s₁.skip (n + 1)).allowKey allowed).push t) := by
  refine ⟨?_, fun ts hts => ?_⟩
  · change s₁.rest.drop (n + 1) <:+ cs
    rw [hrest]
    exact List.drop_suffix n cs
  · obtain ⟨htokens, hcandidates⟩ := (h ts hts).push t
    exact ⟨htokens, hcandidates⟩

/-- A token is taken over with what is left behind it. -/
theorem advances_take {rest : List Char} (hrest : rest <:+ cs)
    (h : ∀ ts, Settled ts s → Settled ts s₁) (p : Position) (allowed : Bool) (t : YamlToken) :
    Advances cs s ({ s₁ with rest, position := p, keyAllowed := allowed }.push t) := by
  refine ⟨hrest, fun ts hts => ?_⟩
  obtain ⟨htokens, hcandidates⟩ := (h ts hts).push t
  exact ⟨htokens, hcandidates⟩

/-- The start of a block collection reads nothing. -/
theorem rest_openBlock (s : Scanner) (column place : Nat) (t : YamlToken) :
    (s.openBlock column place t).rest = s.rest := by
  unfold openBlock
  split <;> rfl

/-- The ends of all block collections read nothing. -/
theorem rest_closeAll (s : Scanner) : s.closeAll.rest = s.rest := by
  unfold closeAll
  split <;> rfl

/-- The ends of the deeper block collections read nothing. -/
theorem rest_closeDeeper (s : Scanner) : s.closeDeeper.rest = s.rest := by
  unfold closeDeeper
  split <;> rfl

/-- Giving up the candidate reads nothing. -/
theorem rest_eq_of_dropCandidate (h : s.dropCandidate = some s₁) : s₁.rest = s.rest :=
  eq_of_dropCandidate h ▸ rfl

/-- Directives and document marks end all collections. -/
theorem advances_closeAll (hrest : s.rest = c :: cs) (h : s.closeAll.dropCandidate = some s₁)
    (n : Nat) (t : YamlToken) :
    Advances cs s (((s₁.skip (n + 1)).allowKey false).push t) :=
  advances_push ((rest_eq_of_dropCandidate h).trans ((rest_closeAll s).trans hrest))
    (fun _ hts => hts.closeAll.dropCandidate h) n false t

/-- The scanner advances at a bracket that closes. -/
theorem advances_of_fetchFlowEnd (hrest : s.rest = c :: cs) (h : s.fetchFlowEnd t = some s₂) :
    Advances cs s s₂ := by
  obtain ⟨s₁, hs₁, h⟩ := Option.bind_eq_some_iff.mp h
  obtain rfl := Option.some.inj h
  have hrest₁ := (rest_eq_of_dropCandidate hs₁).trans hrest
  split
  · next candidate outer houter =>
    refine advances_push (c := c) ?_ (fun ts hts => ?_) 0 _ t
    · exact hrest₁
    obtain ⟨htokens, hcandidates⟩ := hts.dropCandidate hs₁
    rw [houter] at hcandidates
    exact ⟨htokens, (List.forall_mem_cons.mp hcandidates).2⟩
  · exact advances_push hrest₁ (fun ts hts => hts.dropCandidate hs₁) 0 _ t

/-- The scanner advances at the colon of a value. This is the one token that puts others in front of
itself: the mark of the key goes to the place of the candidate, behind the settled ones. -/
theorem advances_of_fetchValue (hrest : s.rest = c :: cs) (h : s.fetchValue = some s₂) :
    Advances cs s s₂ := by
  unfold fetchValue at h
  split at h
  · next candidate hcandidate =>
    obtain rfl := Option.some.inj h
    refine advances_push (c := c) ?_ (fun ts hts => ?_) 0 _ _
    · exact (rest_openBlock ..).trans hrest
    have hplace : ts.length ≤ candidate.token :=
      hts.candidates _ (List.mem_cons_self ..) _ hcandidate
    exact (hts.insert hplace _).withoutCandidate.openBlock hplace _ _
  · split at h
    · cases h
    · obtain rfl := Option.some.inj h
      exact advances_push ((rest_openBlock ..).trans hrest)
        (fun ts hts => hts.openBlock hts.length_le _ _) 0 _ _

/-- The marks in front of an item and of a key open a collection. -/
theorem advances_openBlock (hrest : s.rest = c :: cs)
    (h : (s.openBlock s.position.column s.tokens.size t).dropCandidate = some s₁)
    (allowed : Bool) (t' : YamlToken) :
    Advances cs s (((s₁.skip 1).allowKey allowed).push t') :=
  advances_push ((rest_eq_of_dropCandidate h).trans ((rest_openBlock ..).trans hrest))
    (fun _ hts => (hts.openBlock hts.length_le _ _).dropCandidate h) 0 allowed t'

/-- The scanner advances at the header of a block scalar. -/
theorem advances_of_fetchBlockScalar {folded : Bool} (hrest : s.rest = c :: cs)
    (h : s.fetchBlockScalar folded = some s₂) : Advances cs s s₂ := by
  obtain ⟨s₁, hs₁, h⟩ := Option.bind_eq_some_iff.mp h
  obtain ⟨⟨chomping, indent⟩, -, h⟩ := Option.bind_eq_some_iff.mp h
  obtain ⟨l, hread, h⟩ := Option.bind_eq_some_iff.mp h
  obtain rfl := Option.some.inj h
  have hread := rest_suffix_of_readBlock hread
  have hrest₁ := (rest_eq_of_dropCandidate hs₁).trans hrest
  refine advances_take (hread.trans ?_) (fun ts hts => hts.dropCandidate hs₁) _ _ _
  have hline (n : Nat) : (s₁.skip (n + 1)).rest <:+ cs := by
    change s₁.rest.drop (n + 1) <:+ cs
    rw [hrest₁]
    exact List.drop_suffix n cs
  split
  · exact List.nil_suffix
  · next d behind heq => exact (List.suffix_cons d behind).trans (heq ▸ hline _)

/-- The scanner advances at a directive. -/
theorem advances_of_fetchDirective (hrest : s.rest = c :: cs) (h : s.fetchDirective = some s₂) :
    Advances cs s s₂ := by
  obtain ⟨s₁, hs₁, h⟩ := Option.bind_eq_some_iff.mp h
  obtain ⟨t, -, h⟩ := Option.bind_eq_some_iff.mp h
  obtain rfl := Option.some.inj h
  exact advances_closeAll hrest hs₁ _ t

/-- The scanner advances at the mark of a document. -/
theorem advances_of_fetchDocumentMark (hrest : s.rest = c :: cs)
    (h : s.fetchDocumentMark t = some s₂) : Advances cs s s₂ := by
  obtain ⟨s₁, hs₁, h⟩ := Option.bind_eq_some_iff.mp h
  obtain rfl := Option.some.inj h
  exact advances_closeAll hrest hs₁ 2 t

/-- The scanner advances at a bracket that opens. -/
theorem advances_of_fetchFlowStart (hrest : s.rest = c :: cs) (h : s.fetchFlowStart t = some s₂) :
    Advances cs s s₂ := by
  obtain ⟨s₁, hs₁, h⟩ := Option.bind_eq_some_iff.mp h
  obtain rfl := Option.some.inj h
  have hrest₁ := (rest_eq_of_saveCandidate hs₁).trans hrest
  refine advances_push (c := c) ?_ (fun ts hts => ?_) 0 _ t
  · exact hrest₁
  have hsaved := hts.saveCandidate hs₁
  exact ⟨hsaved.tokens, List.forall_mem_cons.mpr ⟨nofun, hsaved.candidates⟩⟩

/-- The scanner advances at a comma between brackets. -/
theorem advances_of_fetchFlowEntry (hrest : s.rest = c :: cs) (h : s.fetchFlowEntry = some s₂) :
    Advances cs s s₂ := by
  obtain ⟨s₁, hs₁, h⟩ := Option.bind_eq_some_iff.mp h
  obtain rfl := Option.some.inj h
  exact advances_push ((rest_eq_of_dropCandidate hs₁).trans hrest)
    (fun ts hts => hts.dropCandidate hs₁) 0 _ _

/-- The scanner advances at the dash of an item. -/
theorem advances_of_fetchBlockEntry (hrest : s.rest = c :: cs) (h : s.fetchBlockEntry = some s₂) :
    Advances cs s s₂ := by
  unfold fetchBlockEntry at h
  split at h
  · cases h
  · obtain ⟨s₁, hs₁, h⟩ := Option.bind_eq_some_iff.mp h
    obtain rfl := Option.some.inj h
    exact advances_openBlock hrest hs₁ _ _

/-- The scanner advances at the question mark of a key. -/
theorem advances_of_fetchKey (hrest : s.rest = c :: cs) (h : s.fetchKey = some s₂) :
    Advances cs s s₂ := by
  unfold fetchKey at h
  split at h
  · cases h
  · obtain ⟨s₁, hs₁, h⟩ := Option.bind_eq_some_iff.mp h
    obtain rfl := Option.some.inj h
    exact advances_openBlock hrest hs₁ _ _

/-- The scanner advances at an anchor or an alias. -/
theorem advances_of_fetchName {isAlias : Bool} (hrest : s.rest = c :: cs)
    (h : s.fetchName isAlias = some s₂) : Advances cs s s₂ := by
  obtain ⟨s₁, hs₁, h⟩ := Option.bind_eq_some_iff.mp h
  dsimp only at h
  split at h
  · cases h
  · obtain rfl := Option.some.inj h
    exact advances_push ((rest_eq_of_saveCandidate hs₁).trans hrest)
      (fun ts hts => hts.saveCandidate hs₁) _ _ _

/-- The scanner advances at a tag. -/
theorem advances_of_fetchTag (hrest : s.rest = c :: cs) (h : s.fetchTag = some s₂) :
    Advances cs s s₂ := by
  obtain ⟨s₁, hs₁, h⟩ := Option.bind_eq_some_iff.mp h
  obtain ⟨⟨handle, suffix, width, rest⟩, hread, h⟩ := Option.bind_eq_some_iff.mp h
  dsimp only at h
  split at h
  · cases h
  · obtain rfl := Option.some.inj h
    rw [rest_eq_of_saveCandidate hs₁, hrest] at hread
    exact advances_take (rest_suffix_of_readTag hread) (fun ts hts => hts.saveCandidate hs₁) _ _ _

/-- The scanner advances at a quoted scalar. -/
theorem advances_of_fetchQuoted {single : Bool} (hrest : s.rest = c :: cs)
    (h : s.fetchQuoted single = some s₂) : Advances cs s s₂ := by
  obtain ⟨s₁, hs₁, h⟩ := Option.bind_eq_some_iff.mp h
  obtain ⟨l, hread, h⟩ := Option.bind_eq_some_iff.mp h
  obtain rfl := Option.some.inj h
  have hread := rest_suffix_of_readQuoted hread
  have hrest₁ : (s₁.skip 1).rest = cs := by
    change s₁.rest.drop 1 = cs
    rw [rest_eq_of_saveCandidate hs₁, hrest]
    rfl
  exact advances_take (hrest₁ ▸ hread) (fun ts hts => hts.saveCandidate hs₁) _ _ _

/-- The scanner advances at a plain scalar. It has a first character, since neither a mark nor a
bracket stands here. -/
theorem advances_of_fetchPlain (hrest : s.rest = c :: cs)
    (hmark : ¬(s.position.column = 0 ∧ isDocumentMark (c :: cs) = true))
    (hflow : isFlowEnd c = false) (hstarts : startsPlain s.inFlow c cs.head? = true)
    (h : s.fetchPlain = some s₂) : Advances cs s s₂ := by
  obtain ⟨s₁, hs₁, h⟩ := Option.bind_eq_some_iff.mp h
  obtain ⟨l, hread, h⟩ := Option.bind_eq_some_iff.mp h
  obtain rfl := Option.some.inj h
  have hplace : s₁.rest = c :: cs ∧ s₁.position = s.position ∧ s₁.inFlow = s.inFlow := by
    rcases eq_or_of_saveCandidate hs₁ with rfl | ⟨required, rfl⟩ <;> exact ⟨hrest, rfl, rfl⟩
  rw [hplace.1, hplace.2.1, hplace.2.2] at hread
  exact advances_take (rest_suffix_of_startsPlain hmark hflow hstarts hread)
    (fun ts hts => hts.saveCandidate hs₁) _ _ _

/-- **One token**: at least one character is read, and settled tokens stay. -/
theorem advances_of_fetch (hrest : s.rest = c :: cs) (h : s.fetch c cs = some s₂) :
    Advances cs s s₂ := by
  have hfetches := fetches s c cs
  rw [h] at hfetches
  generalize hresult : some s₂ = result at hfetches
  cases hfetches with
  | directive => exact advances_of_fetchDirective hrest hresult.symm
  | documentMark t => exact advances_of_fetchDocumentMark hrest hresult.symm
  | flowStart t => exact advances_of_fetchFlowStart hrest hresult.symm
  | flowEnd t => exact advances_of_fetchFlowEnd hrest hresult.symm
  | flowEntry => exact advances_of_fetchFlowEntry hrest hresult.symm
  | blockEntry => exact advances_of_fetchBlockEntry hrest hresult.symm
  | key => exact advances_of_fetchKey hrest hresult.symm
  | value => exact advances_of_fetchValue hrest hresult.symm
  | name isAlias => exact advances_of_fetchName hrest hresult.symm
  | tag => exact advances_of_fetchTag hrest hresult.symm
  | blockScalar folded => exact advances_of_fetchBlockScalar hrest hresult.symm
  | quoted single => exact advances_of_fetchQuoted hrest hresult.symm
  | plain hmark hflow hstarts =>
      exact advances_of_fetchPlain hrest hmark hflow hstarts hresult.symm
  | nothing => cases hresult

/-! ### Whole runs -/

/-- What is left behind a gap is the end of what was there. -/
theorem rest_passGap (s : Scanner) : s.passGap.rest <:+ s.rest :=
  rest_suffix_passFrom s.inFlow s.keyAllowed false s.position s.rest

/-- Looking at the candidates again reads nothing. -/
theorem rest_eq_of_refreshAll (h : s.refreshAll = some s₁) : s₁.rest = s.rest := by
  obtain ⟨o, -, h⟩ := Option.bind_eq_some_iff.mp h
  obtain ⟨os, -, h⟩ := Option.bind_eq_some_iff.mp h
  exact Option.some.inj h ▸ rfl

/-- The text that is left when the next token is read. -/
theorem rest_suffix_of_round (h : s.passGap.refreshAll = some s₁) :
    s₁.closeDeeper.rest <:+ s.rest := by
  rw [rest_closeDeeper, rest_eq_of_refreshAll h]
  exact rest_passGap s

/-- Fuel beyond what there is to read does not count, by induction on what is left. -/
theorem run_eq_of_lt {fuel fuel' : Nat} (h : s.rest.length < fuel) (h' : s.rest.length < fuel') :
    run fuel s = run fuel' s := by
  induction fuel generalizing s fuel' with
  | zero => cases h
  | succ fuel ih =>
      obtain ⟨fuel', rfl⟩ := Nat.exists_eq_add_of_le' (Nat.lt_of_le_of_lt (Nat.zero_le _) h')
      rw [run, run]
      cases hround : s.passGap.refreshAll with
      | none => rfl
      | some s₁ =>
          have hle := (rest_suffix_of_round hround).length_le
          simp only [Option.bind_eq_bind, Option.bind_some]
          split
          · rfl
          · next c cs hrest =>
            cases hfetch : s₁.closeDeeper.fetch c cs with
            | none => rfl
            | some s₂ =>
                have hlt := (advances_of_fetch hrest hfetch).rest.length_le
                rw [hrest, List.length_cons] at hle
                exact ih (by omega) (by omega)

/-- **The fuel does not matter**: a scanner always comes to some tokens or fails. -/
theorem exists_yields (s : Scanner) : ∃ ts, s.Yields ts :=
  ⟨_, fun _ hfuel => run_eq_of_lt hfuel (Nat.lt_succ_self _)⟩

/-- **Settled tokens stay**: they are the first ones of the document. -/
theorem prefix_of_run {fuel : Nat} (hts : Settled ts s) (h : run fuel s = some ts') :
    ts <+: ts' := by
  induction fuel generalizing s with
  | zero => cases h
  | succ fuel ih =>
      rw [run] at h
      obtain ⟨s₁, hround, h⟩ := Option.bind_eq_some_iff.mp h
      have hpass : Settled ts s.passGap := ⟨hts.tokens, hts.candidates⟩
      have hdeeper := (hpass.refreshAll hround).closeDeeper
      dsimp only at h
      split at h
      · obtain ⟨s₂, hs₂, h⟩ := Option.bind_eq_some_iff.mp h
        obtain rfl := Option.some.inj h
        exact (hdeeper.closeAll.dropCandidate hs₂).tokens
      · next c cs hrest =>
        obtain ⟨s₂, hfetch, h⟩ := Option.bind_eq_some_iff.mp h
        exact ih ((advances_of_fetch hrest hfetch).settled ts hdeeper) h

/-- Without candidates the tokens so far are the first ones. -/
theorem Yields.prefix_of_block {rest : List Char} {columns : List Nat} {allowed : Bool}
    (h : (block rest p ts columns allowed).Yields (some ts')) : ts <+: ts' := by
  refine prefix_of_run (s := block rest p ts columns allowed) ⟨?_, ?_⟩ (h _ (Nat.lt_succ_self _))
  · exact List.prefix_refl ts
  · simp [block]

end Scanner

end AgentPipeline.Yaml
