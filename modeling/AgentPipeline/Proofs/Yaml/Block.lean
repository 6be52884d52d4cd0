import AgentPipeline.Yaml.Printer
import AgentPipeline.Proofs.Yaml.Scan
import Mathlib.Data.List.TakeWhile

/-!
# Reading literal blocks

The lines of a literal block are read as they are, once it is known in which column they stand. If
the header does not say so, the first line that is not empty shows it, unless that line starts with
white space itself (`ShowsColumn`): the reader then takes this white space for a part of the margin.
-/

namespace AgentPipeline.Yaml

variable {c : Char} {cs rest text : List Char} {b : Block} {p : Position} {n : Nat} {l : Lexeme}

/-! ### Lines in a known column -/

/-- **What a block keeps** while the lines of a literal text are read, which it may have to find the
column of first. -/
structure Block.Fits (n : Nat) (b : Block) : Prop where
  notFolded : b.folded = false
  indent : ∀ column ∈ b.indent, column = n
  least : b.least ≤ n
  widest : b.widest ≤ n

/-- The lines of a block that fits stand in the known column. -/
theorem Block.Fits.column_eq (h : b.Fits n) (hn : 0 < n) :
    ({ b with widest := max b.widest n } : Block).column = n := by
  have hleast := h.least
  have hwidest := h.widest
  unfold Block.column
  cases hindent : b.indent with
  | some column => exact h.indent column hindent
  | none =>
      simp only [Option.getD_none]
      omega

/-- An empty line is a break that is set aside. -/
theorem readBlock_emptyLine (hcolumn : p.column = 0) :
    readBlock false b p ('\n' :: cs) =
      readBlock false { b with breaks := '\n' :: b.breaks } (p.nextLine '\n') cs := by
  simp [readBlock, hcolumn, isBreak]

/-- The margin of a line is passed over. -/
theorem readBlock_margin {k : Nat} (cs : List Char)
    (h : ∀ column ∈ b.indent, p.column + k ≤ column) :
    readBlock false b p (List.replicate k ' ' ++ cs) =
      readBlock false b (p.skip (List.replicate k ' ')) cs := by
  induction k generalizing p with
  | zero => rfl
  | succ k ih =>
      have hmargin : b.indent.all (p.column < ·) = true := by
        rw [Option.all_eq_true]
        intro column hcolumn
        have hle := h column hcolumn
        exact decide_eq_true (by omega)
      have hskip := ih (p := p.next ' ') fun column hcolumn => by
        have hle := h column hcolumn
        change p.column + 1 + k ≤ column
        omega
      rw [List.replicate_succ, List.cons_append, readBlock, if_neg Bool.false_ne_true]
      simp only [hmargin, and_self, if_true]
      exact hskip

/-- The block at the first character of a line behind the margin. -/
def Block.atLine (b : Block) (c : Char) (n : Nat) : Block :=
  Block.startLine { b with widest := max b.widest n } c

/-- The first character of a line behind the margin starts it. -/
theorem readBlock_startLine (cs : List Char) (hb : b.Fits n) (hn : 0 < n)
    (hcolumn : p.column = n) (hbreak : isBreak c = false)
    (hshows : b.indent = none → isSpaceOrTab c = false) :
    readBlock false b p (c :: cs) = readBlock true (b.atLine c n) (p.next c) cs := by
  have hmargin : b.indent.all (p.column < ·) = true → isSpaceOrTab c = false := by
    intro hall
    refine hshows (Option.eq_none_iff_forall_not_mem.mpr fun column hmem => ?_)
    have hlt := of_decide_eq_true ((Option.all_eq_true _ _).mp hall column hmem)
    have heq := hb.indent column hmem
    omega
  have hspace : ¬(c = ' ' ∧ b.indent.all (p.column < ·) = true) := by
    rintro ⟨rfl, h⟩
    exact absurd (hmargin h) (by decide)
  have htab : ¬(c = '\t' ∧ b.indent.all (p.column < ·) = true) := by
    rintro ⟨rfl, h⟩
    exact absurd (hmargin h) (by decide)
  have hfits : ({ b with widest := max b.widest p.column } : Block).column = p.column := by
    rw [hcolumn]
    exact hb.column_eq hn
  rw [readBlock, if_neg Bool.false_ne_true]
  dsimp only
  rw [if_neg hspace, if_neg htab, if_neg (by simp [hbreak]), if_pos hfits.symm, hcolumn]
  rfl

/-- **The lines of a text are read as they are**, by induction on the text: `fresh` tells whether
the reader is in front of a line. -/
theorem exists_readBlock_indentLines (fresh : Bool) (rest : List Char) (hb : b.Fits n)
    (hn : 0 < n) (hbreaks : ∀ c ∈ cs, isBreak c = true → c = '\n')
    (hlast : cs.getLast? ≠ some '\n')
    (hfresh : if fresh then p.column = 0 ∧ cs ≠ [] ∧
        (b.indent = none → ∀ c ∈ (cs.dropWhile isBreak).head?, isSpaceOrTab c = false)
      else b.indent = some n ∧ b.lead = [] ∧ b.breaks = []) :
    ∃ b' p', readBlock (!fresh) b p (indentLines n fresh cs ++ rest) = readBlock true b' p' rest ∧
      b'.text = cs.reverse ++ (b.breaks ++ b.lead ++ b.text) ∧ b'.lead = [] ∧ b'.breaks = [] ∧
        b'.chomping = b.chomping := by
  -- along the text; `fresh` stands for the start of a line, where the margin is still to be read
  induction cs generalizing fresh b p with
  | nil =>
      cases fresh with
      | false =>
          obtain ⟨-, hlead, hbreaks⟩ := hfresh
          exact ⟨b, p, rfl, by simp [hlead, hbreaks], hlead, hbreaks, rfl⟩
      | true => exact absurd rfl hfresh.2.1
  | cons c cs ih =>
      rw [List.forall_mem_cons] at hbreaks
      have hlast' : cs.getLast? ≠ some '\n' := by
        intro h
        rw [List.getLast?_cons, h] at hlast
        exact hlast rfl
      cases hbreak : isBreak c with
      | true =>
          obtain rfl := hbreaks.1 hbreak
          have hne : cs ≠ [] := by
            rintro rfl
            exact hlast rfl
          cases fresh with
          | false =>
              -- the line ends, and its break is the one that leads what follows
              obtain ⟨hindent, hlead, hnone⟩ := hfresh
              obtain ⟨b', p', hread, htext, hkept⟩ := ih true
                (b := { b with lead := ['\n'] }) (p := p.nextLine '\n')
                ⟨hb.notFolded, hb.indent, hb.least, hb.widest⟩ hbreaks.2 hlast'
                ⟨rfl, hne, by simp [hindent]⟩
              refine ⟨b', p', ?_, ?_, hkept⟩
              · rw [← hread]
                rfl
              · simpa [hlead, hnone] using htext
          | true =>
              -- an empty line: the column of the block need not be known yet
              obtain ⟨hcolumn, -, hshows⟩ := hfresh
              obtain ⟨b', p', hread, htext, hkept⟩ := ih true
                (b := { b with breaks := '\n' :: b.breaks }) (p := p.nextLine '\n')
                ⟨hb.notFolded, hb.indent, hb.least, hb.widest⟩ hbreaks.2 hlast'
                ⟨rfl, hne, hshows⟩
              refine ⟨b', p', ?_, ?_, hkept⟩
              · rw [← hread]
                exact readBlock_emptyLine hcolumn
              · simpa using htext
      | false =>
          cases fresh with
          | false =>
              -- inside of a line the character is kept as it is
              obtain ⟨hindent, hlead, hnone⟩ := hfresh
              obtain ⟨b', p', hread, htext, hkept⟩ := ih false
                (b := { b with text := c :: b.text }) (p := p.next c)
                ⟨hb.notFolded, hb.indent, hb.least, hb.widest⟩ hbreaks.2 hlast'
                ⟨hindent, hlead, hnone⟩
              refine ⟨b', p', ?_, ?_, hkept⟩
              · rw [← hread]
                simp [indentLines, hbreak, readBlock]
              · simpa [hlead, hnone] using htext
          | true =>
              -- the first character of a line: the margin in front of it settles the column
              obtain ⟨hcolumn, -, hshows⟩ := hfresh
              let q := p.skip (List.replicate n ' ')
              have hq : q.column = n := by
                rw [Position.column_skip, hcolumn, List.length_replicate, Nat.zero_add]
              have hmargin := readBlock_margin (b := b) (p := p) (k := n)
                (c :: (indentLines n false cs ++ rest)) fun column hmem => by
                  have heq := hb.indent column hmem
                  omega
              have hindent : (b.atLine c n).indent = some n := congrArg some (hb.column_eq hn)
              obtain ⟨b', p', hread, htext, hkept⟩ := ih false
                (b := b.atLine c n) (p := q.next c)
                ⟨hb.notFolded, by simp [hindent], hb.least,
                  Nat.max_le.mpr ⟨hb.widest, Nat.le_refl n⟩⟩
                hbreaks.2 hlast' ⟨hindent, rfl, rfl⟩
              refine ⟨b', p', ?_, ?_, hkept⟩
              · have hstart := readBlock_startLine (indentLines n false cs ++ rest) hb hn
                  hq hbreak fun hnone =>
                    hshows hnone c (by simp [List.dropWhile_cons_of_neg, hbreak])
                rw [← hread, Bool.not_false, ← hstart, ← hmargin]
                simp [indentLines, hbreak]
              · simpa [Block.atLine, Block.startLine, hb.notFolded] using htext

/-- A block in front of its first line. -/
def Block.literal (chomping : Chomping) (indent : Option Nat) (least : Nat) : Block :=
  ⟨false, chomping, indent, least, 0, [], [], [], false⟩

/-- A text of which the first line that is not empty shows the margin. -/
def ShowsColumn (cs : List Char) : Prop :=
  ∀ c ∈ (cs.dropWhile isBreak).head?, isSpaceOrTab c = false

/-- **A literal block is read as its text**, up to the line break at its end. -/
theorem exists_readBlock_literal (chomping : Chomping) (least : Nat) {indent : Option Nat}
    {tail : List Char} (hchomping : chomping ≠ .keep) (hleast : least ≤ n) (hn : 0 < n)
    (hindent : indent = some n ∨ (indent = none ∧ ShowsColumn cs)) (hcolumn : p.column = 0)
    (hbreaks : ∀ c ∈ cs, isBreak c = true → c = '\n') (hne : cs ≠ [])
    (hlast : cs.getLast? ≠ some '\n') (htail : tail = [] ∨ tail = ['\n']) :
    ∃ p', readBlock false (.literal chomping indent least) p (indentLines n true cs ++ tail) =
      some ⟨String.ofList (cs ++ if chomping = .strip then [] else tail), true, p', []⟩ := by
  have hfits : (Block.literal chomping indent least).Fits n := by
    refine ⟨rfl, fun column hmem => ?_, hleast, Nat.zero_le n⟩
    rcases hindent with rfl | ⟨rfl, -⟩
    · exact (Option.some.inj hmem).symm
    · cases hmem
  have hshows : (Block.literal chomping indent least).indent = none → ShowsColumn cs := by
    rcases hindent with rfl | ⟨-, h⟩
    · nofun
    · exact fun _ => h
  obtain ⟨b', p', hread, htext, hlead, hnone, hchomp⟩ := exists_readBlock_indentLines true tail
    hfits hn hbreaks hlast ⟨hcolumn, hne, hshows⟩
  rw [Bool.not_true] at hread
  rw [hread]
  have htext : b'.text = cs.reverse := by simpa [Block.literal] using htext
  have hchomp : b'.chomping = chomping := hchomp
  -- the end of the text: a line feed is kept as the chomping says
  rcases htail with rfl | rfl
  · have hfinish : b'.finish = String.ofList cs := by
      rw [Block.finish, hchomp, htext, hlead, hnone]
      cases chomping <;> simp
    refine ⟨p', ?_⟩
    rw [ite_self, List.append_nil, ← hfinish]
    rfl
  · have hfinish : Block.finish { b' with lead := ['\n'] } =
        String.ofList (cs ++ if chomping = .strip then [] else ['\n']) := by
      simp only [Block.finish, hchomp, htext]
      cases chomping
      · simp
      · simp
      · exact absurd rfl hchomping
    refine ⟨p'.nextLine '\n', ?_⟩
    rw [← hfinish]
    rfl

/-! ### Lines in an unknown column -/

/-- What has been read stays at the front of the text. -/
theorem prefix_finish (b : Block) : b.text.reverse <+: b.finish.toList := by
  rw [Block.finish, String.toList_ofList, List.reverse_append]
  exact List.prefix_append _ _

/-- What has been read of a block is the start of its text. -/
theorem prefix_of_readBlock {inLine : Bool} (h : readBlock inLine b p cs = some l) :
    b.text.reverse <+: l.text.toList := by
  fun_induction readBlock inLine b p cs
  case case8 =>
    obtain rfl := Option.some.inj h
    exact prefix_finish _
  all_goals grind [prefix_finish, Block.startLine, List.prefix_append, List.IsPrefix.trans]

/-- **Where the lines show their column themselves**, the first one that is not empty starts with
something else than white space. -/
theorem showsColumn_of_readBlock (hindent : b.indent = none) (htext : b.text = [])
    (hlead : b.lead = []) (hbreaks : ∀ c ∈ b.breaks, isBreak c = true)
    (h : readBlock false b p cs = some l) : ShowsColumn l.text.toList := by
  -- what ends before a line has started consists of line breaks only
  have hfinish (b' : Block) (htext : b'.text = []) (hlead : b'.lead = [])
      (hbreaks : ∀ c ∈ b'.breaks, isBreak c = true) : ShowsColumn b'.finish.toList := by
    have hall : ∀ c ∈ b'.breaks.reverse, isBreak c = true := by simpa using hbreaks
    unfold Block.finish
    cases b'.chomping <;> simp [ShowsColumn, htext, hlead, List.dropWhile_eq_nil_iff.mpr hall]
  induction cs generalizing b p with
  | nil =>
      obtain rfl := Option.some.inj h
      exact hfinish b htext hlead hbreaks
  | cons c cs ih =>
      rw [readBlock, if_neg Bool.false_ne_true] at h
      have hmargin : b.indent.all (p.column < ·) = true := by rw [hindent, Option.all_none]
      simp only [hmargin, and_true] at h
      split at h
      · exact ih hindent htext hlead hbreaks h
      · next hspace =>
        split at h
        · cases h
        · next htab =>
          split at h
          · next hbreak =>
            exact ih (b := { b with widest := max b.widest p.column, breaks := c :: b.breaks })
              hindent htext hlead (List.forall_mem_cons.mpr ⟨hbreak, hbreaks⟩) h
          · next hbreak =>
            split at h
            · -- the line starts here, and its first character is behind the empty lines
              obtain ⟨more, hmore⟩ := prefix_of_readBlock h
              have hall : ∀ c ∈ b.breaks.reverse, isBreak c = true := by simpa using hbreaks
              rw [Bool.not_eq_true] at hbreak
              have hstart : l.text.toList = b.breaks.reverse ++ c :: more := by
                rw [← hmore]
                simp [Block.startLine, htext, hlead]
              rw [ShowsColumn, hstart, List.dropWhile_append_of_pos hall]
              simp [List.dropWhile_cons_of_neg, hbreak, isSpaceOrTab, hspace, htab]
            · obtain rfl := Option.some.inj h
              exact hfinish _ htext hlead hbreaks

/-! ### Lines too far to the left -/

/-- How much of a single line break at the end of a text is kept. -/
def Chomping.kept : Chomping → Nat
  | .strip => 0
  | _ => 1

/-- The characters that a block holds so far. -/
def Block.extent (b : Block) : Nat :=
  b.text.length + b.lead.length + b.breaks.length

/-- The text is no longer than what the block holds. -/
theorem length_finish_le (b : Block) : b.finish.toList.length ≤ b.extent := by
  rw [Block.finish, Block.extent, String.toList_ofList, List.length_reverse]
  cases b.chomping <;> simp <;> omega

/-- Stripped, the text is what has been read. -/
theorem length_finish_of_strip (h : b.chomping = .strip) :
    b.finish.toList.length = b.text.length := by
  rw [Block.finish, h, String.toList_ofList, List.length_reverse]
  rfl

/-- The block when the reader has come to a column in front of a line. -/
def Block.reaching (b : Block) (n : Nat) : Block :=
  { b with widest := max b.widest n }

/-- Coming to a column does not move the block to the left. -/
theorem Block.column_le_reaching (b : Block) (n : Nat) : b.column ≤ (b.reaching n).column := by
  unfold Block.column Block.reaching
  cases b.indent with
  | some column => exact Nat.le_refl column
  | none =>
      simp only [Option.getD_none]
      omega

/-- A margin that is given is the column of the block. -/
theorem Block.le_of_mem_indent (hcolumn : n ≤ b.column) : ∀ column ∈ b.indent, n ≤ column := by
  intro column hindent
  rwa [Block.column, Option.mem_def.mp hindent] at hcolumn

/-- A line break is set aside, with the column in front of it. -/
theorem readBlock_break (cs : List Char) (hbreak : isBreak c = true) :
    readBlock false b p (c :: cs) =
      readBlock false { b.reaching p.column with breaks := c :: b.breaks } (p.nextLine c) cs := by
  have hspace : c ≠ ' ' := by rintro rfl; exact absurd hbreak (by decide)
  have htab : c ≠ '\t' := by rintro rfl; exact absurd hbreak (by decide)
  simp [readBlock, hspace, htab, hbreak, Block.reaching]

/-- In front of a line, a character that ends no line belongs to the margin, starts the line, or
stands behind the block. -/
theorem readBlock_cases (hbreak : isBreak c = false)
    (h : readBlock false b p (c :: cs) = some l) :
    readBlock false b (p.next c) cs = some l ∨
      (p.column = (b.reaching p.column).column ∧
        readBlock true (b.atLine c p.column) (p.next c) cs = some l) ∨
      l.text = (b.reaching p.column).finish := by
  rw [readBlock, if_neg Bool.false_ne_true] at h
  dsimp only at h
  split at h
  · exact .inl h
  split at h
  · cases h
  rw [if_neg (by simp [hbreak])] at h
  split at h
  · next hcolumn => exact .inr (.inl ⟨hcolumn, h⟩)
  · obtain rfl := Option.some.inj h
    exact .inr (.inr rfl)

/-- The end of the last line counts if it is kept. -/
theorem length_le_of_end {inLine : Bool} (h : readBlock inLine b p ['\n'] = some l) :
    l.text.toList.length ≤ b.extent + b.chomping.kept := by
  have hfinish {b' : Block} (hchomping : b'.chomping = b.chomping) (htext : b'.text = b.text)
      (hextent : b'.extent ≤ b.extent + 1) :
      b'.finish.toList.length ≤ b.extent + b.chomping.kept := by
    cases hb : b.chomping with
    | strip =>
        rw [length_finish_of_strip (hchomping.trans hb), htext, Block.extent, Chomping.kept]
        omega
    | _ => exact Nat.le_trans (length_finish_le b') hextent
  cases inLine with
  | true =>
      obtain rfl := Option.some.inj h
      exact hfinish rfl rfl (by simp [Block.extent]; omega)
  | false =>
      rw [readBlock_break [] rfl] at h
      obtain rfl := Option.some.inj h
      exact hfinish rfl rfl (by simp [Block.extent, Block.reaching]; omega)

/-- **No character is read twice**: however the lines of a text are taken, what is read of them is
not longer than the text and the end of its last line. -/
theorem length_le_of_readBlock (inLine fresh : Bool) (hfolded : b.folded = false)
    (hcolumn : n ≤ b.column) (hfresh : fresh = true → inLine = false ∧ p.column = 0)
    (h : readBlock inLine b p (indentLines n fresh cs ++ ['\n']) = some l) :
    l.text.toList.length ≤ b.extent + cs.length + b.chomping.kept := by
  -- each character adds one to what the block holds, or it ends the block
  induction cs generalizing inLine fresh b p with
  | nil => exact length_le_of_end h
  | cons c cs ih =>
      have hreaching (k : Nat) : n ≤ (b.reaching k).column :=
        Nat.le_trans hcolumn (b.column_le_reaching k)
      cases hbreak : isBreak c with
      | true =>
          rw [indentLines, if_pos hbreak, List.cons_append] at h
          cases inLine with
          | true =>
              rw [readBlock, if_pos rfl, if_pos hbreak] at h
              have hle := ih false true (b := { b with lead := [c] }) (p := p.nextLine c) hfolded
                hcolumn (fun _ => ⟨rfl, rfl⟩) h
              simp only [Block.extent, List.length_cons, List.length_nil] at hle ⊢
              omega
          | false =>
              rw [readBlock_break _ hbreak] at h
              have hle := ih false true
                (b := { b.reaching p.column with breaks := c :: b.breaks }) (p := p.nextLine c)
                hfolded (hreaching p.column) (fun _ => ⟨rfl, rfl⟩) h
              simp only [Block.extent, Block.reaching, List.length_cons] at hle ⊢
              omega
      | false =>
          -- the first character behind a margin joins the block, starts it or ends it
          have hmargin (p : Position)
              (h : readBlock false b p (c :: (indentLines n false cs ++ ['\n'])) = some l) :
              l.text.toList.length ≤ b.extent + (cs.length + 1) + b.chomping.kept := by
            rcases readBlock_cases hbreak h with h | ⟨hp, h⟩ | h
            · have hle := ih false false hfolded hcolumn nofun h
              omega
            · have hle := ih true false (b := b.atLine c p.column) hfolded (hreaching p.column)
                nofun h
              have hextent : (b.atLine c p.column).extent = b.extent + 1 := by
                simp [Block.atLine, Block.startLine, Block.extent, hfolded]
                omega
              have hchomping : (b.atLine c p.column).chomping = b.chomping := rfl
              rw [hextent, hchomping] at hle
              omega
            · have hle : l.text.toList.length ≤ b.extent := h ▸ length_finish_le _
              omega
          rw [indentLines, if_neg (by simp [hbreak])] at h
          cases fresh with
          | true =>
              obtain ⟨rfl, hp⟩ := hfresh rfl
              rw [if_pos rfl, List.append_assoc, readBlock_margin _ fun column hindent => by
                rw [hp, Nat.zero_add]
                exact Block.le_of_mem_indent hcolumn column hindent] at h
              exact hmargin _ h
          | false =>
              cases inLine with
              | false => exact hmargin p h
              | true =>
                  have hle := ih true false (b := { b with text := c :: b.text }) hfolded hcolumn
                    nofun (by simpa [readBlock, hbreak] using h)
                  simp only [Block.extent, List.length_cons] at hle ⊢
                  omega

/-- **Lines that stand further to the left than the block** are not read as they are: the first one
that is not empty ends the block, or its spaces are taken for a part of the margin. -/
theorem length_lt_of_readBlock (hfolded : b.folded = false) (hcolumn : n < b.column)
    (hp : p.column = 0) (hcs : ∃ c ∈ cs, isBreak c = false)
    (h : readBlock false b p (indentLines n true cs ++ ['\n']) = some l) :
    l.text.toList.length < b.extent + cs.length + b.chomping.kept := by
  induction cs generalizing b p with
  | nil =>
      obtain ⟨c, hc, -⟩ := hcs
      cases hc
  | cons c cs ih =>
      cases hbreak : isBreak c with
      | true =>
          obtain ⟨d, hd, hline⟩ := hcs
          have hcs : ∃ c ∈ cs, isBreak c = false := by
            rcases List.mem_cons.mp hd with rfl | hd
            · exact absurd (hline.symm.trans hbreak) Bool.false_ne_true
            · exact ⟨d, hd, hline⟩
          -- an empty line is passed over, and the visible character is further on
          rw [indentLines, if_pos hbreak, List.cons_append, readBlock_break _ hbreak] at h
          have hlt := ih (b := { b.reaching p.column with breaks := c :: b.breaks })
            (p := p.nextLine c) hfolded (Nat.lt_of_lt_of_le hcolumn (b.column_le_reaching p.column))
            rfl hcs h
          simp only [Block.extent, Block.reaching, List.length_cons] at hlt ⊢
          omega
      | false =>
          -- the margin of this line is `n`, which is not enough for the block
          let q := p.skip (List.replicate n ' ')
          have hq : q.column = n := by
            rw [Position.column_skip, hp, List.length_replicate, Nat.zero_add]
          rw [indentLines, if_neg (by simp [hbreak]), if_pos rfl, List.append_assoc,
            readBlock_margin _ fun column hindent => by
              rw [hp, Nat.zero_add]
              exact Nat.le_of_lt (Block.le_of_mem_indent hcolumn column hindent)] at h
          rw [List.length_cons]
          rcases readBlock_cases hbreak h with h | ⟨hreached, -⟩ | h
          · have hle := length_le_of_readBlock false false hfolded (Nat.le_of_lt hcolumn) nofun h
            omega
          · have hle := b.column_le_reaching q.column
            have hreached : q.column = (b.reaching q.column).column := hreached
            omega
          · have hle : l.text.toList.length ≤ b.extent := h ▸ length_finish_le _
            omega

namespace Scanner

variable {tokens : List YamlToken} {columns : List Nat} {column : Nat} {outer : List Nat}
  {header : List Char}

/-- A literal block where a value stands. -/
theorem fetch_literal (p : Position) (tokens : List YamlToken) (column : Nat) (outer : List Nat)
    (lines : List Char) {chomping : Chomping} {indent : Option Nat}
    (hheader : readBlockHeader header = some (chomping, indent))
    (hline : ∀ c ∈ header, isBreak c = false) :
    (block ('|' :: (header ++ '\n' :: lines)) p tokens (column :: outer) false).fetch '|'
        (header ++ '\n' :: lines) =
      (readBlock false (.literal chomping (indent.map (column + ·)) (column + 1))
        (((p.next '|').skip header).nextLine '\n') lines).map fun l =>
          block l.rest l.position (tokens ++ [YamlToken.scalar .literal l.text]) (column :: outer)
            true := by
  have htake : (header ++ '\n' :: lines).takeWhile (!isBreak ·) = header := by
    rw [List.takeWhile_append_of_pos (by simpa using hline)]
    simp [isBreak]
  have hfetch : (block ('|' :: (header ++ '\n' :: lines)) p tokens (column :: outer) false).fetch
      '|' (header ++ '\n' :: lines) =
        (block ('|' :: (header ++ '\n' :: lines)) p tokens (column :: outer)
          false).fetchBlockScalar false := by
    simp [fetch, isDocumentMark, block, inFlow]
  rw [hfetch]
  simp only [fetchBlockScalar, dropCandidate, withdraw, block, htake, hheader, skip, leastColumn,
    Position.skip, Block.literal, pushScalar, push, Option.pure_def, Option.bind_eq_bind,
    Option.bind_some, Option.map_eq_bind, Option.getD_some, Function.comp_def, Bool.false_eq_true,
    if_false, List.tail_cons, List.head?_cons, List.drop_one, List.drop_succ_cons, List.drop_left',
    List.take_succ_cons, List.take_left', List.foldl_cons, List.push_toArray]

end Scanner

end AgentPipeline.Yaml
