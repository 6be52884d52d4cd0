import AgentPipeline.Workflow.Document
import AgentPipeline.Proofs.Text.Line

/-!
# Splitting a document

A document is cut at its first two lines of three dashes. The cut loses nothing but the byte order
marks in front and the two lines, and it is made at the first closing line: the frontmatter and the
prompt of a document are the only texts that stand where they should (`split_eq_some_iff`). A
document without them is one in which no such line follows an opening one (`isSome_split_iff`).
-/

namespace AgentPipeline.Frontmatter

open Text

variable {content cs rest yaml body : List Char}

/-! ### The opening line -/

/-- **The opening line** of a document in front of the rest: three dashes with a line feed, or a
carriage return and a line feed, behind any byte order marks. -/
def Opens (content rest : List Char) : Prop :=
  ∃ marks lineEnd, content = marks ++ ['-', '-', '-'] ++ lineEnd ++ rest ∧
    (∀ c ∈ marks, c.toNat = 0xFEFF) ∧ (lineEnd = ['\n'] ∨ lineEnd = ['\r', '\n'])

theorem afterOpening_eq_some_iff : afterOpening cs = some rest ↔
    ∃ lineEnd, cs = ['-', '-', '-'] ++ lineEnd ++ rest ∧
      (lineEnd = ['\n'] ∨ lineEnd = ['\r', '\n']) := by
  constructor
  · intro h
    unfold afterOpening at h
    split at h
    · obtain rfl := Option.some.inj h
      exact ⟨['\n'], rfl, .inl rfl⟩
    · obtain rfl := Option.some.inj h
      exact ⟨['\r', '\n'], rfl, .inr rfl⟩
    · cases h
  · rintro ⟨lineEnd, rfl, rfl | rfl⟩ <;> rfl

/-- The opening line is found where it is. -/
theorem afterOpening_dropWhile_iff :
    afterOpening (content.dropWhile (·.toNat == 0xFEFF)) = some rest ↔ Opens content rest := by
  rw [afterOpening_eq_some_iff]
  constructor
  · rintro ⟨lineEnd, hrest, hend⟩
    refine ⟨content.takeWhile (·.toNat == 0xFEFF), lineEnd, ?_, ?_, hend⟩
    · rw [List.append_assoc, List.append_assoc, ← List.append_assoc ['-', '-', '-'], ← hrest,
        List.takeWhile_append_dropWhile]
    · intro c hc
      simpa using List.mem_takeWhile_imp hc
  · rintro ⟨marks, lineEnd, rfl, hmarks, hend⟩
    refine ⟨lineEnd, ?_, hend⟩
    have hall : ∀ c ∈ marks, (c.toNat == 0xFEFF) = true := fun c hc => by simpa using hmarks c hc
    rw [List.append_assoc, List.append_assoc, List.dropWhile_append_of_pos hall]
    rfl

/-! ### The closing line -/

/-- **The closing line**: three dashes, white space behind them aside. -/
def IsClosing (line : List Char) : Prop := trimEnd line = ['-', '-', '-']

instance : DecidablePred IsClosing := fun line =>
  inferInstanceAs (Decidable (trimEnd line = ['-', '-', '-']))

theorem isDelimiter_iff {line : List Char} : isDelimiter line = true ↔ IsClosing line :=
  beq_iff_eq

/-- Pieces are cut at the first one that is a closing line. -/
theorem atClosing_eq_some_iff {ps : List (List Char)} : atClosing ps = some (yaml, body) ↔
    ∃ front line back, ps = front ++ line :: back ∧ IsClosing line ∧ (∀ p ∈ front, ¬IsClosing p) ∧
      front.flatten = yaml ∧ back.flatten = body := by
  -- the first closing line is found at the front or further on
  induction ps generalizing yaml with
  | nil => simp [atClosing]
  | cons p ps ih =>
      rw [atClosing]
      split
      · next hp =>
        rw [isDelimiter_iff] at hp
        constructor
        · rintro ⟨⟩
          exact ⟨[], p, ps, rfl, hp, by simp, rfl, rfl⟩
        · rintro ⟨front, line, back, hps, -, hfront, rfl, rfl⟩
          cases front with
          | nil =>
              obtain ⟨rfl, rfl⟩ := List.cons.inj hps
              rfl
          | cons q front =>
              obtain ⟨rfl, -⟩ := List.cons.inj hps
              exact absurd hp (hfront p List.mem_cons_self)
      · next hp =>
        rw [isDelimiter_iff] at hp
        rw [Option.map_eq_some_iff]
        constructor
        · rintro ⟨⟨yaml', body'⟩, h, heq⟩
          obtain ⟨rfl, rfl⟩ := Prod.mk.inj heq
          obtain ⟨front, line, back, rfl, hline, hfront, rfl, rfl⟩ := ih.mp h
          exact ⟨p :: front, line, back, rfl, hline, List.forall_mem_cons.mpr ⟨hp, hfront⟩, rfl,
            rfl⟩
        · rintro ⟨front, line, back, hps, hline, hfront, rfl, rfl⟩
          cases front with
          | nil =>
              obtain ⟨rfl, rfl⟩ := List.cons.inj hps
              exact absurd hline hp
          | cons q front =>
              obtain ⟨rfl, rfl⟩ := List.cons.inj hps
              refine ⟨(front.flatten, back.flatten), ih.mpr ⟨front, line, back, rfl, hline,
                fun p hp => hfront p (List.mem_cons_of_mem _ hp), rfl, rfl⟩, rfl⟩

/-- Pieces are cut if one of them is a closing line. -/
theorem isSome_atClosing_iff {ps : List (List Char)} :
    (atClosing ps).isSome ↔ ∃ p ∈ ps, IsClosing p := by
  induction ps with
  | nil => simp [atClosing]
  | cons p ps ih =>
      simp only [atClosing, List.mem_cons, exists_eq_or_imp]
      split
      · next hp => exact iff_of_true rfl (.inl (isDelimiter_iff.mp hp))
      · next hp =>
        rw [isDelimiter_iff] at hp
        rw [Option.isSome_map, ih, or_iff_right hp]

/-! ### The two parts -/

/-- No line of a text is a closing line. -/
def NoClosing (cs : List Char) : Prop :=
  ∀ front line back, cs = front ++ line ++ back → IsPieceBetween front line back → ¬IsClosing line

theorem noClosing_iff : NoClosing cs ↔ ∀ p ∈ pieces cs, ¬IsClosing p := by
  constructor
  · intro h p hp
    obtain ⟨front, back, hcut, hbetween⟩ := mem_pieces_iff.mp hp
    exact h front p back hcut hbetween
  · intro h front line back hcut hbetween
    exact h line (mem_pieces_iff.mpr ⟨front, back, hcut, hbetween⟩)

/-- **The parts of a document**: behind the opening line the frontmatter, none of whose lines is a
closing line, then a closing line, and then the prompt. -/
def Splits (content yaml body : List Char) : Prop :=
  ∃ line, Opens content (yaml ++ line ++ body) ∧ IsPieceBetween yaml line body ∧ IsClosing line ∧
    NoClosing yaml

/-- What stands behind the opening line is cut at the first closing line. -/
theorem atClosing_pieces_iff : atClosing (pieces rest) = some (yaml, body) ↔
    ∃ line, rest = yaml ++ line ++ body ∧ IsPieceBetween yaml line body ∧ IsClosing line ∧
      NoClosing yaml := by
  rw [atClosing_eq_some_iff]
  constructor
  · rintro ⟨front, line, back, hcut, hline, hfront, rfl, rfl⟩
    obtain ⟨hbetween, hpieces⟩ := isPieceBetween_flatten hcut
    refine ⟨line, ?_, hbetween, hline, noClosing_iff.mpr (by rwa [hpieces])⟩
    rw [← flatten_pieces rest, hcut]
    simp
  · rintro ⟨line, rfl, hbetween, hline, hyaml⟩
    exact ⟨pieces yaml, line, pieces body, pieces_between hbetween, hline, noClosing_iff.mp hyaml,
      flatten_pieces yaml, flatten_pieces body⟩

/-- A document is cut into its parts. -/
theorem split_eq_some_iff : split content = some (yaml, body) ↔ Splits content yaml body := by
  rw [split, Option.bind_eq_bind, Option.bind_eq_some_iff]
  constructor
  · rintro ⟨rest, hopens, hcut⟩
    obtain ⟨line, rfl, hbetween, hline, hyaml⟩ := atClosing_pieces_iff.mp hcut
    exact ⟨line, afterOpening_dropWhile_iff.mp hopens, hbetween, hline, hyaml⟩
  · rintro ⟨line, hopens, hbetween, hline, hyaml⟩
    exact ⟨_, afterOpening_dropWhile_iff.mpr hopens,
      atClosing_pieces_iff.mpr ⟨line, rfl, hbetween, hline, hyaml⟩⟩

/-- A document is cut if a closing line follows the opening one. -/
theorem isSome_split_iff : (split content).isSome ↔ ∃ front line back,
    Opens content (front ++ line ++ back) ∧ IsPieceBetween front line back ∧ IsClosing line := by
  rw [split, Option.bind_eq_bind, Option.isSome_bind, Option.any_eq_true]
  constructor
  · rintro ⟨rest, hopens, hcut⟩
    obtain ⟨line, hmem, hline⟩ := isSome_atClosing_iff.mp hcut
    obtain ⟨front, back, rfl, hbetween⟩ := mem_pieces_iff.mp hmem
    exact ⟨front, line, back, afterOpening_dropWhile_iff.mp hopens, hbetween, hline⟩
  · rintro ⟨front, line, back, hopens, hbetween, hline⟩
    exact ⟨_, afterOpening_dropWhile_iff.mpr hopens, isSome_atClosing_iff.mpr
      ⟨line, mem_pieces_iff.mpr ⟨front, back, rfl, hbetween⟩, hline⟩⟩

/-- A document put together from a frontmatter of whole lines and a prompt has these parts. -/
theorem splits_append (hwhole : WholeLines yaml) (hyaml : NoClosing yaml) :
    Splits ("---\n".toList ++ yaml ++ "---\n".toList ++ body) yaml body := by
  refine ⟨"---\n".toList, ⟨[], ['\n'], ?_, by simp, .inl rfl⟩, ⟨hwhole, ?_, ?_, .inl ?_⟩, ?_, hyaml⟩
  · simp
  all_goals decide

/-- **Splitting is exact**: a document is cut into its parts and into nothing else, it is cut
whenever a closing line follows the opening one, and cutting undoes putting together. -/
theorem split_exact :
    (∀ content yaml body, split content = some (yaml, body) ↔ Splits content yaml body) ∧
      (∀ content, (split content).isSome ↔ ∃ front line back,
        Opens content (front ++ line ++ back) ∧ IsPieceBetween front line back ∧
          IsClosing line) ∧
      ∀ yaml body, WholeLines yaml → NoClosing yaml →
        split ("---\n".toList ++ yaml ++ "---\n".toList ++ body) = some (yaml, body) :=
  ⟨fun _ _ _ => split_eq_some_iff, fun _ => isSome_split_iff,
    fun _ _ hwhole hyaml => split_eq_some_iff.mpr (splits_append hwhole hyaml)⟩

/-- Dashes behind white space and longer rows of dashes do not close the frontmatter, and the
prompt may have lines of three dashes. -/
theorem split_exact_dashes :
    WholeLines "on: push\n ---\n----\n".toList ∧ NoClosing "on: push\n ---\n----\n".toList ∧
      split ("---\n".toList ++ "on: push\n ---\n----\n".toList ++ "---\n".toList ++
        "Go.\n---\n".toList) = some ("on: push\n ---\n----\n".toList, "Go.\n---\n".toList) := by
  have hwhole : WholeLines "on: push\n ---\n----\n".toList := .inr (by decide)
  have hyaml : NoClosing "on: push\n ---\n----\n".toList := noClosing_iff.mpr (by decide)
  exact ⟨hwhole, hyaml, split_exact.2.2 _ _ hwhole hyaml⟩

/-- Byte order marks, line ends with a carriage return, and white space behind the closing line. -/
example : split "\uFEFF---\r\non: push\r\n--- \r\nGo.".toList =
    some ("on: push\r\n".toList, "Go.".toList) := by
  decide

end AgentPipeline.Frontmatter
