import AgentPipeline.Yaml.Token
import AgentPipeline.Proofs.Yaml.Block

/-!
# Texts that stand deeper

Two texts are read side by side, of which the second has the lines of the first `d` columns further
to the right (`Deeper`). The first line of either has been begun already, and the further lines of
the first text stand at the column `m` or behind it. Only lines that are empty may have any margin.

The readers of scalars come to the same result in both texts, and what they leave again differs by
its margins only (`Deeper.readPlain`, `Deeper.readQuoted`, `Deeper.readBlock`). It matters to them
that a line is indented enough, and how far it is indented in comparison to the collection around
it; an empty line counts as a line break, whatever its margin.
-/

namespace AgentPipeline.Yaml

variable {m d : Nat} {p p' q q' r r' : Position} {c : Char} {cs cs' : List Char} {l l' : Lexeme}

/-! ### Positions -/

/-- Reading goes on **alike** from `p` to `q` and from `p'` to `q'`: over as many lines, and over as
many bytes on the same line. -/
structure Position.Alike (p q p' q' : Position) : Prop where
  le : p.line ≤ q.line
  line : q'.line + p.line = q.line + p'.line
  index : q.line = p.line → q'.index + p.index = q.index + p'.index

namespace Position.Alike

/-- Reading nothing goes on alike. -/
theorem refl (p p' : Position) : Alike p p p' p' :=
  ⟨Nat.le_refl _, Nat.add_comm .., fun _ => Nat.add_comm ..⟩

/-- Reading further goes on alike. -/
theorem trans (h : Alike p q p' q') (h' : Alike q r q' r') : Alike p r p' r' := by
  obtain ⟨hle, hline, hindex⟩ := h
  obtain ⟨hle', hline', hindex'⟩ := h'
  refine ⟨Nat.le_trans hle hle', by omega, fun heq => ?_⟩
  have hfirst := hindex (by omega)
  have hsecond := hindex' (by omega)
  omega

/-- A character takes both texts as far. -/
theorem next (p p' : Position) (c : Char) : Alike p (p.next c) p' (p'.next c) := by
  refine ⟨Nat.le_refl _, Nat.add_comm .., fun _ => ?_⟩
  change p'.index + c.utf8Size + p.index = p.index + c.utf8Size + p'.index
  omega

/-- A line takes both texts to its margin, however wide. -/
theorem indented (p p' : Position) (n n' : Nat) :
    Alike p (p.indented n) p' (p'.indented n') := by
  have hline (p : Position) (n : Nat) : (p.indented n).line = p.line + 1 :=
    Position.line_skip _ _
  refine ⟨by rw [hline]; exact Nat.le_succ _, by rw [hline, hline]; omega, fun heq => ?_⟩
  rw [hline] at heq
  omega

end Position.Alike

open Position (Alike)

/-! ### Texts -/

/-- What is left of a text at the position `p`, and of a **deeper** text at the position `p'`: its
lines stand `d` columns further to the right, and those of the first text at the column `m` or
behind it. -/
inductive Deeper (m d : Nat) : Position → List Char → Position → List Char → Prop
  | nil (p p' : Position) : Deeper m d p [] p' []
  | char {p p' : Position} {c : Char} {cs cs' : List Char} (hbreak : isBreak c = false)
      (hle : m ≤ p.column) (hcolumn : p'.column = p.column + d)
      (h : Deeper m d (p.next c) cs (p'.next c) cs') : Deeper m d p (c :: cs) p' (c :: cs')
  | line {p p' : Position} {n n' : Nat} {cs cs' : List Char} (hn : n ≤ m) (hn' : n' ≤ m + d)
      (h : Deeper m d (p.indented n) cs (p'.indented n') cs') :
      Deeper m d p ('\n' :: (List.replicate n ' ' ++ cs)) p'
        ('\n' :: (List.replicate n' ' ' ++ cs'))

namespace Deeper

/-- The next character is the same in both texts. -/
theorem head?_eq (h : Deeper m d p cs p' cs') : cs'.head? = cs.head? := by
  cases h <;> rfl

/-- Both texts end at once. -/
theorem eq_nil (h : Deeper m d p [] p' cs') : cs' = [] := by
  cases h
  rfl

/-- At a character that is no line break both texts are on their lines. -/
theorem exists_cons (h : Deeper m d p (c :: cs) p' cs') (hbreak : isBreak c = false) :
    ∃ cs'', cs' = c :: cs'' ∧ m ≤ p.column ∧ p'.column = p.column + d ∧
      Deeper m d (p.next c) cs (p'.next c) cs'' := by
  cases h with
  | char _ hle hcolumn h => exact ⟨_, rfl, hle, hcolumn, h⟩
  | line => cases hbreak

/-- What is passed on one line is the same in both texts. -/
theorem skip {w : List Char} (h : Deeper m d p (w ++ cs) p' cs')
    (hw : ∀ c ∈ w, isBreak c = false) :
    ∃ cs'', cs' = w ++ cs'' ∧ Deeper m d (p.skip w) cs (p'.skip w) cs'' := by
  induction w generalizing p p' cs' with
  | nil => exact ⟨cs', rfl, h⟩
  | cons c w ih =>
      rw [List.forall_mem_cons] at hw
      obtain ⟨cs'', rfl, -, -, hnext⟩ := h.exists_cons hw.1
      obtain ⟨cs₂, rfl, hskip⟩ := ih hnext hw.2
      exact ⟨cs₂, rfl, hskip⟩

/-- The same characters come next, as long as they are no line breaks. -/
theorem takeWhile {f : Char → Bool} (hf : ∀ c, f c = true → isBreak c = false)
    (h : Deeper m d p cs p' cs') :
    cs'.takeWhile f = cs.takeWhile f ∧
      Deeper m d (p.skip (cs.takeWhile f)) (cs.dropWhile f) (p'.skip (cs.takeWhile f))
        (cs'.dropWhile f) := by
  induction h with
  | nil p p' => exact ⟨rfl, .nil p p'⟩
  | @char p p' c cs cs' hbreak hle hcolumn h ih =>
      cases hc : f c with
      | true => simpa [List.takeWhile_cons, List.dropWhile_cons, hc, Position.skip] using ih
      | false =>
          simpa [List.takeWhile_cons, List.dropWhile_cons, hc, Position.skip] using
            Deeper.char hbreak hle hcolumn h
  | @line p p' n n' cs cs' hn hn' h ih =>
      have hc : f '\n' = false := by
        cases hc : f '\n' with
        | true => exact absurd (hf _ hc) (by decide)
        | false => rfl
      simpa [List.takeWhile_cons, List.dropWhile_cons, hc, Position.skip] using
        Deeper.line hn hn' h

end Deeper

/-- On one line reading goes on alike. -/
theorem Position.Alike.skip (p p' : Position) (w : List Char) :
    Alike p (p.skip w) p' (p'.skip w) := by
  induction w generalizing p p' with
  | nil => exact .refl p p'
  | cons c w ih => exact (Alike.next p p' c).trans (ih (p.next c) (p'.next c))

/-! ### White space -/

/-- The spaces in front of a line are passed over. -/
theorem passFrom_indent (flow allowed : Bool) (p : Position) (n : Nat) (cs : List Char) :
    Scanner.passFrom flow allowed false p (List.replicate n ' ' ++ cs) =
      Scanner.passFrom flow allowed false (p.skip (List.replicate n ' ')) cs := by
  induction n generalizing p with
  | zero => rfl
  | succ n ih =>
      rw [List.replicate_succ, List.cons_append, Scanner.passFrom, if_neg (by decide),
        if_neg Bool.false_ne_true, if_pos (.inl rfl), ih]
      rfl

/-- What is not passed over breaks no line. -/
theorem isBreak_of_passFrom {flow allowed comment : Bool}
    (h : (Scanner.passFrom flow allowed comment p cs).2.2 = c :: cs') : isBreak c = false := by
  fun_induction Scanner.passFrom flow allowed comment p cs <;> grind

/-- The same white space is passed over in both texts. -/
theorem Deeper.passFrom (h : Deeper m d p cs p' cs') (hm : 0 < m) (flow allowed comment : Bool) :
    (Scanner.passFrom flow allowed comment p' cs').1 =
        (Scanner.passFrom flow allowed comment p cs).1 ∧
      Deeper m d (Scanner.passFrom flow allowed comment p cs).2.1
        (Scanner.passFrom flow allowed comment p cs).2.2
        (Scanner.passFrom flow allowed comment p' cs').2.1
        (Scanner.passFrom flow allowed comment p' cs').2.2 ∧
      Alike p (Scanner.passFrom flow allowed comment p cs).2.1 p'
        (Scanner.passFrom flow allowed comment p' cs').2.1 := by
  induction h generalizing allowed comment with
  | nil p p' => exact ⟨rfl, .nil p p', .refl p p'⟩
  | @char p p' c cs cs' hbreak hle hcolumn h ih =>
      have hstart : p.column ≠ 0 ∧ p'.column ≠ 0 := by omega
      have hnext (allowed comment : Bool) := ih allowed comment
      rw [Scanner.passFrom, Scanner.passFrom]
      simp only [hbreak, hstart.1, hstart.2, and_false, or_false, Bool.false_eq_true, if_false]
      have hgoes (allowed comment : Bool) := (ih allowed comment).imp_right fun h =>
        h.imp_right (Alike.next p p' c).trans
      split
      · exact hgoes allowed true
      split
      · exact hgoes allowed false
      split
      · exact hgoes allowed true
      · exact ⟨rfl, .char hbreak hle hcolumn h, .refl p p'⟩
  | @line p p' n n' cs cs' hn hn' h ih =>
      have hpass (p : Position) (n : Nat) (cs : List Char) :
          Scanner.passFrom flow allowed comment p ('\n' :: (List.replicate n ' ' ++ cs)) =
            Scanner.passFrom flow (allowed || !flow) false (p.indented n) cs := by
        rw [Scanner.passFrom, if_pos (by decide), passFrom_indent]
        rfl
      rw [hpass, hpass]
      exact (ih _ _).imp_right fun h => h.imp_right (Alike.indented p p' n n').trans

/-! ### Scalars -/

/-- A scalar and the same scalar in a deeper text, read from the positions `p` and `p'`. -/
structure Lexeme.Deeper (m d : Nat) (p p' : Position) (l l' : Lexeme) : Prop where
  text : l'.text = l.text
  brokeLine : l'.brokeLine = l.brokeLine
  rest : Yaml.Deeper m d l.position l.rest l'.position l'.rest
  alike : Alike p l.position p' l'.position

/-- The results of a reader in two texts: there is none in either, or the same scalar in both. -/
abbrev ReadsDeeper (m d : Nat) (p p' : Position) : Option Lexeme → Option Lexeme → Prop :=
  Option.Rel (Lexeme.Deeper m d p p')

/-- A scalar read further on is read as deep from the front. -/
theorem Position.Alike.readsDeeper {o o' : Option Lexeme} (hstep : Alike p q p' q')
    (h : ReadsDeeper m d q q' o o') : ReadsDeeper m d p p' o o' := by
  cases h with
  | some h => exact .some ⟨h.text, h.brokeLine, h.rest, hstep.trans h.alike⟩
  | none => exact .none

/-- Two readers that branch alike read alike. -/
theorem ReadsDeeper.ite {o o' e e' : Option Lexeme} {P : Prop} [Decidable P]
    (hthen : P → ReadsDeeper m d p p' o o') (helse : ¬P → ReadsDeeper m d p p' e e') :
    ReadsDeeper m d p p' (if P then o else e) (if P then o' else e') := by
  split
  · next hP => exact hthen hP
  · next hP => exact helse hP

/-- The scalar ends here. -/
theorem ReadsDeeper.here (text : String) (brokeLine : Bool) (h : Deeper m d p cs p' cs') :
    ReadsDeeper m d p p' (some ⟨text, brokeLine, p, cs⟩) (some ⟨text, brokeLine, p', cs'⟩) :=
  .some ⟨rfl, rfl, h, .refl p p'⟩

/-- The block in a deeper text, where the widest margin so far may be another one. -/
def Block.deeper (d widest : Nat) (b : Block) : Block :=
  { b with indent := b.indent.map (· + d), least := b.least + d, widest }

namespace Block

variable {b : Block} {w : Nat}

/-- A line is in a deeper block if the line in the text is in the block. -/
theorem all_indent_deeper (h : p'.column = p.column + d) :
    (b.deeper d w).indent.all (p'.column < ·) = b.indent.all (p.column < ·) := by
  cases hb : b.indent <;> simp [deeper, hb, h]

/-- The lines of a deeper block stand as far to the right as the text. -/
theorem column_deeper (hleast : 0 < b.least) (hwidest : w = b.widest + d) :
    (b.deeper d w).column = b.column + d := by
  cases hb : b.indent with
  | some n => simp [column, deeper, hb]
  | none =>
      simp only [column, deeper, hb, Option.map_none, Option.getD_none]
      omega

/-- A line is started in both blocks alike. -/
theorem startLine_deeper (h : (b.deeper d w).column = b.column + d) (c : Char) :
    (b.deeper d w).startLine c = (b.startLine c).deeper d w := by
  rw [startLine, h]
  rfl

end Block

namespace Deeper

/-- A gap with a break in it is a gap of breaks. -/
theorem exists_addBreak (gap : Gap) : ∃ first more, gap.addBreak '\n' = .breaks first more := by
  cases gap <;> exact ⟨_, _, rfl⟩

/-- **Plain scalars** are the same in both texts. -/
theorem readPlain (h : Deeper m d p cs p' cs') (hm : 0 < m) (flow : Bool) (least : Nat) (gap : Gap)
    (text : List Char) :
    ReadsDeeper m d p p' (readPlain flow least gap text p cs)
      (readPlain flow (least + d) gap text p' cs') := by
  induction h generalizing gap text with
  | nil p p' => exact .here _ _ (.nil p p')
  | @char p p' c cs cs' hbreak hle hcolumn h ih =>
      have hstart : p.column ≠ 0 ∧ p'.column ≠ 0 := by omega
      have hindented : p'.column < least + d ↔ p.column < least := by omega
      have hhere := Deeper.char hbreak hle hcolumn h
      have hgoes (gap : Gap) (text : List Char) :=
        (Alike.next p p' c).readsDeeper (ih gap text)
      rw [Yaml.readPlain, Yaml.readPlain, h.head?_eq]
      simp only [hbreak, hstart.1, hstart.2, hindented, false_and, Bool.false_eq_true, if_false]
      refine .ite (fun _ => .ite (fun _ => .none) fun _ => hgoes _ _) fun _ => ?_
      refine .ite (fun _ => .here _ _ hhere) fun _ => .ite (fun _ => .none) fun _ => ?_
      exact .ite (fun _ => .here _ _ hhere) fun _ => hgoes _ _
  | @line p p' n n' cs cs' hn hn' h ih =>
      obtain ⟨first, more, hgap⟩ := exists_addBreak gap
      rw [Yaml.readPlain, Yaml.readPlain, if_pos (by decide), if_pos (by decide), hgap,
        readPlain_indent, readPlain_indent]
      exact (Alike.indented p p' n n').readsDeeper (ih _ _)

/-- Between quotes, white space in front of a line does not count. -/
theorem readQuoted_indent {single : Bool} {first : Option Char} {more text : List Char} (n : Nat)
    (rest : List Char) :
    readQuoted single .none (.breaks first more) text p (List.replicate n ' ' ++ rest) =
      readQuoted single .none (.breaks first more) text (p.skip (List.replicate n ' ')) rest := by
  induction n generalizing p with
  | zero => rfl
  | succ n ih =>
      rw [List.replicate_succ, List.cons_append]
      exact ih

/-- **Quoted scalars** are the same in both texts. -/
theorem readQuoted (h : Deeper m d p cs p' cs') (hm : 0 < m) (single : Bool) (escape : Escape)
    (gap : Gap) (text : List Char) :
    ReadsDeeper m d p p' (readQuoted single escape gap text p cs)
      (readQuoted single escape gap text p' cs') := by
  -- along the deeper text, with the escape and the text so far the same in both
  induction h generalizing escape gap text with
  | nil p p' =>
      unfold Yaml.readQuoted
      exact .ite (fun _ => .here _ _ (.nil p p')) fun _ => .none
  | @char p p' c cs cs' hbreak hle hcolumn h ih =>
      have hstart : p.column ≠ 0 ∧ p'.column ≠ 0 := by omega
      have hhere := Deeper.char hbreak hle hcolumn h
      have hgoes (escape : Escape) (gap : Gap) (text : List Char) :=
        (Alike.next p p' c).readsDeeper (ih escape gap text)
      cases escape with
      | quote =>
          rw [Yaml.readQuoted, Yaml.readQuoted]
          exact .ite (fun _ => hgoes _ _ _) fun _ => .here _ _ hhere
      | hex digits value =>
          rw [Yaml.readQuoted, Yaml.readQuoted]
          refine .ite (fun _ => ?_) fun _ => .none
          cases digits with
          | succ digits => exact hgoes _ _ _
          | zero =>
              dsimp only
              cases charOfCode? (value * 16 + digitValue c) with
              | some char => exact hgoes _ _ _
              | none => exact .none
      | backslash =>
          rw [Yaml.readQuoted, Yaml.readQuoted]
          refine .ite (fun hbreak' => absurd hbreak' (by simp [hbreak])) fun _ => ?_
          cases unescape c with
          | some meaning => cases meaning <;> exact hgoes _ _ _
          | none => exact .none
      | none =>
          rw [Yaml.readQuoted, Yaml.readQuoted]
          simp only [hbreak, hstart.1, hstart.2, false_and, Bool.false_eq_true, if_false]
          refine .ite (fun _ => hgoes _ _ _) fun _ => .ite (fun _ => hgoes _ _ _) fun _ => ?_
          refine .ite (fun _ => .some ⟨rfl, rfl, h, .next p p' c⟩) fun _ => ?_
          exact .ite (fun _ => hgoes _ _ _) fun _ => hgoes _ _ _
  | @line p p' n n' cs cs' hn hn' h ih =>
      -- the margins of the two lines differ, so both readers are taken behind them first
      have hbreaks (first : Option Char) (more : List Char) (p : Position) (n : Nat)
          (cs : List Char) : Yaml.readQuoted single .none (.breaks first more) text
            (p.nextLine '\n') (List.replicate n ' ' ++ cs) =
              Yaml.readQuoted single .none (.breaks first more) text (p.indented n) cs :=
        readQuoted_indent n cs
      have hgoes (first : Option Char) (more : List Char) :=
        (Alike.indented p p' n n').readsDeeper (ih .none (.breaks first more) text)
      cases escape with
      | quote => exact .here _ _ (.line hn hn' h)
      | hex digits value => exact .none
      | backslash =>
          change ReadsDeeper m d p p' (Yaml.readQuoted single .none (.breaks none []) text _ _)
            (Yaml.readQuoted single .none (.breaks none []) text _ _)
          rw [hbreaks, hbreaks]
          exact hgoes _ _
      | none =>
          obtain ⟨first, more, hgap⟩ := exists_addBreak gap
          change ReadsDeeper m d p p' (Yaml.readQuoted single .none (gap.addBreak '\n') text _ _)
            (Yaml.readQuoted single .none (gap.addBreak '\n') text _ _)
          rw [hgap, hbreaks, hbreaks]
          exact hgoes _ _

/-! ### Blocks -/

/-- The margin of a line in a block is passed over. -/
theorem readBlock_nextLine {b : Block} {n : Nat} (hindent : ∀ column ∈ b.indent, n ≤ column)
    (p : Position) (cs : List Char) :
    Yaml.readBlock false b (p.nextLine '\n') (List.replicate n ' ' ++ cs) =
      Yaml.readBlock false b (p.indented n) cs := by
  refine readBlock_margin cs fun column hmem => ?_
  change 0 + n ≤ column
  rw [Nat.zero_add]
  exact hindent column hmem

/-- In a deeper text the column of a block is further to the right. -/
theorem le_of_mem_indent {b : Block} {n w : Nat} (hindent : ∀ column ∈ b.indent, m ≤ column)
    (hn : n ≤ m + d) : ∀ column ∈ (b.deeper d w).indent, n ≤ column := by
  intro column hcolumn
  obtain ⟨column, hmem, rfl⟩ := Option.map_eq_some_iff.mp hcolumn
  exact Nat.le_trans hn (Nat.add_le_add_right (hindent column hmem) d)

/-- **Block scalars** are the same in both texts. The column of their lines is known, or else the
widest margin so far can be neglected in both texts. -/
theorem readBlock (h : Deeper m d p cs p' cs') {inLine : Bool} {b : Block} {w : Nat}
    (hindent : ∀ column ∈ b.indent, m ≤ column) (hleast : 0 < b.least)
    (hwidest : max w (m + d) = max b.widest m + d)
    (hmargin : inLine = false →
      p'.column = p.column + d ∨ (p.column ≤ m ∧ p'.column ≤ m + d)) :
    ReadsDeeper m d p p' (readBlock inLine b p cs) (readBlock inLine (b.deeper d w) p' cs') := by
  induction h generalizing inLine b w with
  | nil p p' => exact .here _ _ (.nil p p')
  | @char p p' c cs cs' hbreak hle hcolumn h ih =>
      have hnext : (p'.next c).column = (p.next c).column + d := by
        change p'.column + 1 = p.column + 1 + d
        omega
      have hgoes {inLine : Bool} {b : Block} {w : Nat} (hindent : ∀ column ∈ b.indent, m ≤ column)
          (hleast : 0 < b.least) (hwidest : max w (m + d) = max b.widest m + d) :=
        (Alike.next p p' c).readsDeeper (@ih inLine b w hindent hleast hwidest
          fun _ => .inl hnext)
      rw [Yaml.readBlock, Yaml.readBlock]
      refine .ite (fun _ => ?_) fun _ => ?_
      · simp only [hbreak, Bool.false_eq_true, if_false]
        exact hgoes (b := { b with text := c :: b.text }) hindent hleast hwidest
      have hwidest' : max w p'.column = max b.widest p.column + d := by
        omega
      -- the block with the margin of this line taken into account
      let b₁ : Block := { b with widest := max b.widest p.column }
      let b₁' := b.deeper d (max w p'.column)
      have hcolumns : b₁'.column = b₁.column + d := Block.column_deeper (b := b₁) hleast hwidest'
      simp only [Block.all_indent_deeper hcolumn, hbreak, Bool.false_eq_true, if_false]
      refine .ite (fun _ => hgoes hindent hleast hwidest) fun _ => .ite (fun _ => .none) fun _ => ?_
      change ReadsDeeper m d p p'
        (if p.column = b₁.column then Yaml.readBlock true (b₁.startLine c) (p.next c) cs
          else some ⟨b₁.finish, true, p, c :: cs⟩)
        (if p'.column = b₁'.column then Yaml.readBlock true (b₁'.startLine c) (p'.next c) cs'
          else some ⟨b₁'.finish, true, p', c :: cs'⟩)
      have hstarts : p'.column = b₁'.column ↔ p.column = b₁.column := by omega
      simp only [hstarts]
      refine .ite (fun hline => ?_) fun _ => .here _ _ (.char hbreak hle hcolumn h)
      have hstart : b₁'.startLine c = (b₁.startLine c).deeper d (max w p'.column) :=
        Block.startLine_deeper (b := b₁) hcolumns c
      rw [hstart]
      refine hgoes ?_ hleast (by dsimp only [Block.startLine, b₁]; omega)
      rintro _ ⟨⟩
      exact hline ▸ hle
  | @line p p' n n' cs cs' hn hn' h ih =>
      have hmargins : (p'.indented n').column = (p.indented n).column + d ∨
          ((p.indented n).column ≤ m ∧ (p'.indented n').column ≤ m + d) := by
        rw [Position.column_indented, Position.column_indented]
        exact .inr ⟨hn, hn'⟩
      have hgoes {b : Block} {w : Nat} (hindent : ∀ column ∈ b.indent, m ≤ column)
          (hleast : 0 < b.least) (hwidest : max w (m + d) = max b.widest m + d) :
          ReadsDeeper m d p p'
            (Yaml.readBlock false b (p.nextLine '\n') (List.replicate n ' ' ++ cs))
            (Yaml.readBlock false (b.deeper d w) (p'.nextLine '\n')
              (List.replicate n' ' ' ++ cs')) := by
        rw [readBlock_nextLine fun column hmem => Nat.le_trans hn (hindent column hmem),
          readBlock_nextLine (le_of_mem_indent hindent hn')]
        exact (Alike.indented p p' n n').readsDeeper (ih hindent hleast hwidest fun _ => hmargins)
      cases inLine with
      | true => exact hgoes (b := { b with lead := ['\n'] }) hindent hleast hwidest
      | false =>
          have hmargin := hmargin rfl
          exact hgoes (b := { b with
            widest := max b.widest p.column, breaks := '\n' :: b.breaks })
            (w := max w p'.column) hindent hleast (by dsimp only; omega)

/-- In a line of a block spaces are kept. -/
theorem readBlock_spaces (n : Nat) (b : Block) (p : Position) (cs : List Char) :
    Yaml.readBlock true b p (List.replicate n ' ' ++ cs) =
      Yaml.readBlock true { b with text := List.replicate n ' ' ++ b.text }
        (p.skip (List.replicate n ' ')) cs := by
  induction n generalizing b p with
  | zero => rfl
  | succ n ih =>
      have hstep : Yaml.readBlock true b p (List.replicate (n + 1) ' ' ++ cs) =
          Yaml.readBlock true { b with text := ' ' :: b.text } (p.next ' ')
            (List.replicate n ' ' ++ cs) := rfl
      have htext :
          List.replicate n ' ' ++ ' ' :: b.text = List.replicate (n + 1) ' ' ++ b.text := by
        rw [List.replicate_succ', List.append_assoc]
        rfl
      rw [hstep, ih, ← htext]
      rfl

/-- In front of a line of a block whose column is known: the line starts there, even if it goes on
with white space. -/
theorem exists_readBlock_nextLine {b : Block} {k : Nat} (hindent : b.indent = some k) (n : Nat)
    (p : Position) (cs : List Char) :
    ∃ inLine b', Yaml.readBlock false b (p.nextLine '\n') (List.replicate n ' ' ++ cs) =
      Yaml.readBlock inLine b' (p.indented n) cs ∧ b'.indent = some k ∧
        (inLine = false → n ≤ k) := by
  by_cases hge : n ≤ k
  · exact ⟨false, b, readBlock_nextLine (by simpa [hindent]) p cs, hindent, fun _ => hge⟩
  obtain ⟨j, rfl⟩ := Nat.exists_eq_add_of_lt (Nat.lt_of_not_le hge)
  have hsplit : List.replicate (k + j + 1) ' ' =
      List.replicate k ' ' ++ ' ' :: List.replicate j ' ' := by
    rw [Nat.add_assoc, ← List.replicate_append_replicate, List.replicate_succ]
  have hposition : ((p.indented k).next ' ').skip (List.replicate j ' ') =
      p.indented (k + j + 1) := by
    rw [Position.indented, Position.indented, hsplit, Position.skip_append]
    rfl
  -- the column shows behind `k` of the spaces
  let b₁ : Block := { b with widest := max b.widest k }
  have hcolumn : b₁.column = k := by simp [b₁, Block.column, hindent]
  have hfirst (cs : List Char) : Yaml.readBlock false b (p.indented k) (' ' :: cs) =
      Yaml.readBlock true (b₁.startLine ' ') ((p.indented k).next ' ') cs := by
    have hmargin : b.indent.all (k < ·) = false := by simp [hindent]
    rw [Yaml.readBlock, if_neg Bool.false_ne_true, Position.column_indented]
    simp only [hmargin, Bool.false_eq_true, and_false, if_false]
    rw [if_neg (by decide)]
    exact if_pos hcolumn.symm
  refine ⟨true, { b₁.startLine ' ' with text := List.replicate j ' ' ++ (b₁.startLine ' ').text },
    ?_, congrArg some hcolumn, fun hfalse => absurd hfalse (by decide)⟩
  rw [hsplit, List.append_assoc, readBlock_nextLine (by simp [hindent]), List.cons_append, hfirst,
    readBlock_spaces, hposition]

/-- A block with lines in a column on the left of all further lines extends to the end of the
text. -/
theorem rest_eq_nil_of_readBlock (h : Deeper m d p cs p' cs') {inLine : Bool} {b : Block} {k : Nat}
    (hindent : b.indent = some k) (hk : k < m) (hmargin : inLine = false → p.column ≤ k)
    (hread : Yaml.readBlock inLine b p cs = some l) : l.rest = [] := by
  -- the lines stand further to the right than the block, so the block ends with the text
  induction h generalizing inLine b with
  | nil p p' =>
      obtain rfl := Option.some.inj hread
      rfl
  | @char p p' c cs cs' hbreak hle hcolumn h ih =>
      cases inLine with
      | false =>
          have hcolumn := hmargin rfl
          omega
      | true =>
          rw [Yaml.readBlock, if_pos rfl, if_neg (by simp [hbreak])] at hread
          have hnever : true = false → (p.next c).column ≤ k := fun hfalse =>
            absurd hfalse (by decide)
          exact @ih true { b with text := c :: b.text } hindent hnever hread
  | @line p p' n n' cs cs' hn hn' h ih =>
      -- each line feed is followed by a margin, in which the block is still read
      have hgoes {b : Block} (hindent : b.indent = some k) (hread : Yaml.readBlock false b
          (p.nextLine '\n') (List.replicate n ' ' ++ cs) = some l) : l.rest = [] := by
        obtain ⟨inLine, b', heq, hindent', hle⟩ := exists_readBlock_nextLine hindent n p cs
        refine @ih inLine b' hindent' (fun hfalse => ?_) (heq ▸ hread)
        rw [Position.column_indented]
        exact hle hfalse
      cases inLine with
      | true => exact hgoes (b := { b with lead := ['\n'] }) hindent hread
      | false =>
          have hbreak : Yaml.readBlock false b p ('\n' :: (List.replicate n ' ' ++ cs)) =
              Yaml.readBlock false { b with
                widest := max b.widest p.column, breaks := '\n' :: b.breaks } (p.nextLine '\n')
                (List.replicate n ' ' ++ cs) := rfl
          exact hgoes (b := { b with
            widest := max b.widest p.column, breaks := '\n' :: b.breaks }) hindent
            (hbreak ▸ hread)

/-- Such a block extends to the end of the text from its first line on. -/
theorem rest_eq_nil_of_nextLine {n : Nat} (h : Deeper m d (p.indented n) cs q' cs') {b : Block}
    {k : Nat} (hindent : b.indent = some k) (hk : k < m)
    (hread : Yaml.readBlock false b (p.nextLine '\n') (List.replicate n ' ' ++ cs) = some l) :
    l.rest = [] := by
  obtain ⟨inLine, b', heq, hindent', hle⟩ := exists_readBlock_nextLine hindent n p cs
  refine h.rest_eq_nil_of_readBlock hindent' hk (fun hfalse => ?_) (heq ▸ hread)
  rw [Position.column_indented]
  exact hle hfalse

end Deeper

end AgentPipeline.Yaml
