import AgentPipeline.Proofs.Condition.Literal

/-!
# White space outside of quotes

Whoever breaks an expression into lines changes its white space, and is free to do so only
outside of quotes. `Respaced gap quotes a b` says that `b` is the text `a` with other white
space: outside of quotes, any run of it may have become any other run, except that none appears
where there was none; at the end it may be gone; and everything else is kept in order. The
relation is a walk over `a`, from a state of the quotes; `gap` holds if white space stands in
front of `b` already, so that more of it may be dropped.

Respacing composes (`Respaced.trans`, `Respaced.append_blanks_append`), and two texts that are
related are the same once every run of white space outside of quotes is one space
(`Respaced.collapseFrom_eq`).
-/

namespace AgentPipeline

namespace Quotes

/-! ### White space and quotes -/

/-- Quotes that a character opened that opens quotes. -/
def Proper (q : Quotes) : Prop :=
  ∀ c, q = .inside c ∨ q = .escaped c → opens c = true

variable {q : Quotes} {c : Char} {cs : List Char}

/-- No quotes are proper. -/
theorem proper_outside : outside.Proper := by
  rintro c (h | h) <;> cases h

/-- One more character keeps the quotes proper. -/
theorem Proper.next (h : q.Proper) (c : Char) : (q.next c).Proper :=
  Cursor.Quoted.after (s := ⟨0, q, none⟩) h c

/-- So does a stretch of text. -/
theorem Proper.after (h : q.Proper) (cs : List Char) : (q.after cs).Proper := by
  induction cs generalizing q with
  | nil => exact h
  | cons c cs ih => exact ih (h.next c)

/-- The quotes go over a text from its first character on. -/
theorem after_cons (q : Quotes) (c : Char) (cs : List Char) :
    q.after (c :: cs) = (q.next c).after cs := rfl

/-- The quotes go over two stretches one after the other. -/
theorem after_append (q : Quotes) (a b : List Char) : q.after (a ++ b) = (q.after a).after b :=
  List.foldl_append

/-- White space opens no quotes. -/
theorem next_blank (h : Text.isBlank c = true) : outside.next c = outside := by
  have hne : c ≠ '\'' ∧ c ≠ '"' :=
    ⟨Text.ne_of_isBlank h (by decide), Text.ne_of_isBlank h (by decide)⟩
  simp [next, opens, hne]

/-- White space opens no quotes. -/
theorem after_blanks (h : Text.Blanks cs) : outside.after cs = outside := by
  induction cs with
  | nil => rfl
  | cons c cs ih =>
      rw [Text.blanks_cons] at h
      rw [after_cons, next_blank h.1, ih h.2]

/-- White space closes no quotes. -/
theorem outside_of_next_blank (hq : q.Proper) (hc : Text.isBlank c = true)
    (h : q.next c = outside) : q = outside := by
  have hne : c ≠ '(' ∧ c ≠ ')' :=
    ⟨Text.ne_of_isBlank hc (by decide), Text.ne_of_isBlank hc (by decide)⟩
  have hclosed : (Cursor.after ⟨0, q, none⟩ c).Closed := ⟨h, by simp [Cursor.after, hne]⟩
  exact (Cursor.closed_of_after_blank (s := ⟨0, q, none⟩) hq hc hclosed).1

/-- White space closes no quotes. -/
theorem outside_of_after_blanks (hq : q.Proper) (hcs : Text.Blanks cs)
    (h : q.after cs = outside) : q = outside := by
  induction cs generalizing q with
  | nil => exact h
  | cons c cs ih =>
      rw [Text.blanks_cons] at hcs
      exact outside_of_next_blank hq hcs.1 (ih (hq.next c) hcs.2 h)

/-- Trimming a text leaves the state of the quotes behind it, if none are open there. -/
theorem after_trim (h : outside.after cs = outside) : outside.after (Text.trim cs) = outside := by
  obtain ⟨front, back, heq, hfront, hback⟩ := Text.exists_trim cs
  rw [heq, after_append, after_append, after_blanks hfront] at h
  exact outside_of_after_blanks (proper_outside.after _) hback h

/-! ### Collapsing -/

/-- The text from a state of the quotes on, with one space for each run of white space outside
of quotes; `due` holds behind such a run, whose space is still to be written. -/
def collapseFrom (q : Quotes) (due : Bool) : List Char → List Char
  | [] => []
  | c :: cs =>
    if q = outside ∧ Text.isBlank c = true then collapseFrom outside true cs
    else
      let rest := c :: collapseFrom (q.next c) false cs
      if due then ' ' :: rest else rest

/-- The text with one space for each run of white space outside of quotes, and none at its
ends. -/
def collapse (cs : List Char) : List Char :=
  collapseFrom outside false (Text.trimStart cs)

/-- White space outside of quotes makes a space due. -/
theorem collapseFrom_blank {due : Bool} (h : Text.isBlank c = true) :
    collapseFrom outside due (c :: cs) = collapseFrom outside true cs := by
  rw [collapseFrom, if_pos ⟨rfl, h⟩]

/-- Any other character is written, behind the space that is due. -/
theorem collapseFrom_kept {due : Bool} (h : q = outside → Text.isBlank c = false) :
    collapseFrom q due (c :: cs) =
      if due then ' ' :: c :: collapseFrom (q.next c) false cs
      else c :: collapseFrom (q.next c) false cs := by
  have hnot : ¬(q = outside ∧ Text.isBlank c = true) := by
    rintro ⟨hq, hc⟩
    simp [h hq] at hc
  rw [collapseFrom, if_neg hnot]

/-- Of white space at the end nothing is left. -/
theorem collapseFrom_blanks {due : Bool} (h : Text.Blanks cs) :
    collapseFrom outside due cs = [] := by
  induction cs generalizing due with
  | nil => rfl
  | cons c cs ih =>
      rw [Text.blanks_cons] at h
      rw [collapseFrom_blank h.1, ih h.2]

/-- White space at the end vanishes, if no quotes are open in front of it. -/
theorem collapseFrom_append_blanks {due : Bool} {back : List Char} (h : q.after cs = outside)
    (hback : Text.Blanks back) : collapseFrom q due (cs ++ back) = collapseFrom q due cs := by
  induction cs generalizing q due with
  | nil =>
      obtain rfl : q = outside := h
      rw [List.nil_append, collapseFrom_blanks hback, collapseFrom]
  | cons c cs ih =>
      have hrest : ∀ due, collapseFrom (q.next c) due (cs ++ back) =
          collapseFrom (q.next c) due cs := fun _ => ih h
      rw [List.cons_append, collapseFrom, collapseFrom]
      split
      · next hblank =>
        rw [hblank.1, next_blank hblank.2] at hrest
        exact hrest true
      · rw [hrest]

/-- A text that does not start with white space is trimmed in front. -/
theorem trimStart_eq_self (h : ∀ c ∈ cs.head?, Text.isBlank c = false) :
    Text.trimStart cs = cs := by
  cases cs with
  | nil => rfl
  | cons c cs => exact List.dropWhile_cons_of_neg (by simp [h c rfl])

/-- Trimming comes to nothing under collapsing. -/
theorem collapse_trim (h : outside.after cs = outside) :
    collapse (Text.trim cs) = collapse cs := by
  obtain ⟨back, hback, hblanks⟩ := Text.exists_trimEnd (Text.trimStart cs)
  have htrim : Text.trimStart cs = Text.trim cs ++ back := hback
  rw [collapse, collapse, trimStart_eq_self (Text.trimmed_trim cs).1, htrim,
    collapseFrom_append_blanks (after_trim h) hblanks]

end Quotes

/-! ### Respacing -/

open Quotes (outside)

/-- **Respacing**: the second text is the first one with other white space outside of quotes. -/
inductive Respaced : Bool → Quotes → List Char → List Char → Prop
  | ends {gap : Bool} {q : Quotes} {a : List Char} : Text.Blanks a → Respaced gap q a []
  | keep {gap : Bool} {q : Quotes} {c : Char} {a b : List Char} :
      (q = outside → Text.isBlank c = false) → Respaced false (q.next c) a b →
      Respaced gap q (c :: a) (c :: b)
  | space {gap : Bool} {c d : Char} {a b : List Char} : Text.isBlank c = true →
      Text.isBlank d = true → Respaced true outside a b →
      Respaced gap outside (c :: a) (d :: b)
  | drop {c : Char} {a b : List Char} : Text.isBlank c = true → Respaced true outside a b →
      Respaced true outside (c :: a) b

namespace Respaced

variable {gap : Bool} {q : Quotes} {a b c : List Char}

/-- No text is respaced to no text. -/
theorem nil : Respaced gap q [] [] := .ends Text.blanks_nil

/-- What may be done without white space in front may be done with it. -/
theorem behind_gap (h : Respaced false q a b) : Respaced gap q a b := by
  cases h with
  | ends ha => exact .ends ha
  | keep hc h => exact .keep hc h
  | space hc hd h => exact .space hc hd h

/-- Texts that start alike. -/
theorem append_left (text : List Char) (h : Respaced false (q.after text) a b) :
    Respaced gap q (text ++ a) (text ++ b) := by
  induction text generalizing gap q with
  | nil => exact h.behind_gap
  | cons x text ih =>
      by_cases hblank : q = outside ∧ Text.isBlank x = true
      · obtain ⟨rfl, hx⟩ := hblank
        have hrest : Respaced false ((outside.next x).after text) a b := h
        rw [Quotes.next_blank hx] at hrest
        exact .space hx hx (ih hrest)
      · have hkept : q = outside → Text.isBlank x = false := by simpa using hblank
        exact .keep hkept (ih h)

/-- Every text is respaced to itself. -/
theorem refl (a : List Char) : Respaced gap q a a := by
  have hend : Respaced false (q.after a) [] [] := nil
  have h : Respaced gap q (a ++ []) (a ++ []) := append_left a hend
  rwa [List.append_nil] at h

/-- White space in front may be dropped. -/
theorem drop_blanks {front : List Char} (hfront : Text.Blanks front)
    (h : Respaced true outside a b) : Respaced true outside (front ++ a) b := by
  induction front with
  | nil => exact h
  | cons x front ih =>
      rw [Text.blanks_cons] at hfront
      exact .drop hfront.1 (ih hfront.2)

/-- White space at the end may be added to what is respaced. -/
theorem append_blanks {back : List Char} (h : Respaced gap q a b) (hback : Text.Blanks back) :
    Respaced gap q (a ++ back) b := by
  induction h with
  | ends ha => exact .ends (List.forall_mem_append.mpr ⟨ha, hback⟩)
  | keep hc _ ih => exact .keep hc ih
  | space hc hd _ ih => exact .space hc hd ih
  | drop hc _ ih => exact .drop hc ih

/-- A run of white space may become one space. -/
theorem space_blanks {run : List Char} (hrun : Text.Blanks run) (hne : run ≠ [])
    (h : Respaced true outside a b) : Respaced gap outside (run ++ a) (' ' :: b) := by
  obtain ⟨x, run, rfl⟩ := List.exists_cons_of_ne_nil hne
  rw [Text.blanks_cons] at hrun
  exact .space hrun.1 (by decide) (drop_blanks hrun.2 h)

/-- Trimming is respacing. -/
theorem trim (a : List Char) : Respaced true outside a (Text.trim a) := by
  obtain ⟨front, back, heq, hfront, hback⟩ := Text.exists_trim a
  have h := drop_blanks hfront ((refl (Text.trim a)).append_blanks hback)
  rwa [← List.append_assoc, ← heq] at h

/-- Other characters than white space are kept. -/
theorem exists_kept {x : Char} (hx : Text.isBlank x = false) (h : Respaced gap q (x :: a) b) :
    ∃ b', b = x :: b' ∧ Respaced false (q.next x) a b' := by
  cases h with
  | ends hblanks => simp [hblanks x List.mem_cons_self] at hx
  | keep _ h => exact ⟨_, rfl, h⟩
  | space hblank => simp [hblank] at hx
  | drop hblank => simp [hblank] at hx

/-- Nothing but white space becomes white space. -/
theorem blanks_of_blanks (h : Respaced gap q a b) (hb : Text.Blanks b) : Text.Blanks a := by
  induction h with
  | ends ha => exact ha
  | keep _ _ ih | space _ _ _ ih =>
      rw [Text.blanks_cons] at hb ⊢
      exact ⟨by first | exact hb.1 | assumption, ih hb.2⟩
  | drop hc _ ih => exact Text.blanks_cons.mpr ⟨hc, ih hb⟩

/-- **Respacing twice** is respacing. -/
theorem trans (h : Respaced gap q a b) (h' : Respaced gap q b c) : Respaced gap q a c := by
  induction h generalizing c with
  | ends ha =>
      cases h' with
      | ends => exact .ends ha
  | keep hc h ih =>
      cases h' with
      | ends hb =>
          have hab : Respaced false _ _ _ := .keep hc h
          exact .ends (hab.blanks_of_blanks hb)
      | keep _ h' => exact .keep hc (ih h')
      | space hblank => simp [hc rfl] at hblank
      | drop hblank => simp [hc rfl] at hblank
  | space hc hd h ih =>
      cases h' with
      | ends hb =>
          have hab : Respaced false _ _ _ := .space hc hd h
          exact .ends (hab.blanks_of_blanks hb)
      | keep hkept => simp [hkept rfl] at hd
      | space _ he h' => exact .space hc he (ih h')
      | drop _ h' => exact .drop hc (ih h')
  | drop hc _ ih => exact .drop hc (ih h')

/-- **Texts side by side**, with white space between them: they may be respaced one by one, if
no quotes are open between them. -/
theorem append_blanks_append {run a' b' : List Char} (hq : q.Proper) (h : Respaced gap q a b)
    (hclosed : q.after a = outside) (hrun : Text.Blanks run) (hne : run ≠ [])
    (h' : Respaced true outside a' b') : Respaced gap q (a ++ (run ++ a')) (b ++ ' ' :: b') := by
  induction h with
  | ends ha =>
      obtain rfl := Quotes.outside_of_after_blanks hq ha hclosed
      rw [← List.append_assoc]
      exact space_blanks (List.forall_mem_append.mpr ⟨ha, hrun⟩) (by simp [hne]) h'
  | keep hc _ ih => exact .keep hc (ih (hq.next _) hclosed)
  | space hc hd _ ih =>
      refine .space hc hd (ih hq ?_)
      rwa [Quotes.after_cons, Quotes.next_blank hc] at hclosed
  | drop hc _ ih =>
      refine .drop hc (ih hq ?_)
      rwa [Quotes.after_cons, Quotes.next_blank hc] at hclosed

/-- **Respacing is invisible under collapsing**, in a text that leaves no quotes open. -/
theorem collapseFrom_eq {due : Bool} (hq : q.Proper) (h : Respaced gap q a b)
    (hclosed : q.after a = outside) (hdue : gap = true → due = true) :
    Quotes.collapseFrom q due a = Quotes.collapseFrom q due b := by
  induction h generalizing due with
  | ends ha =>
      obtain rfl := Quotes.outside_of_after_blanks hq ha hclosed
      rw [Quotes.collapseFrom_blanks ha, Quotes.collapseFrom]
  | keep hc _ ih =>
      rw [Quotes.collapseFrom_kept hc, Quotes.collapseFrom_kept hc, ih (hq.next _) hclosed nofun]
  | space hc hd _ ih =>
      rw [Quotes.after_cons, Quotes.next_blank hc] at hclosed
      rw [Quotes.collapseFrom_blank hc, Quotes.collapseFrom_blank hd]
      exact ih hq hclosed fun _ => rfl
  | drop hc _ ih =>
      rw [Quotes.after_cons, Quotes.next_blank hc] at hclosed
      rw [Quotes.collapseFrom_blank hc, hdue rfl]
      exact ih hq hclosed fun _ => rfl

/-- Behind a respaced text no quotes are open if none are open behind the text. -/
theorem after_eq_outside (hq : q.Proper) (h : Respaced gap q a b) (hclosed : q.after a = outside) :
    q.after b = outside := by
  induction h with
  | ends ha => exact Quotes.outside_of_after_blanks hq ha hclosed
  | keep _ _ ih => exact ih (hq.next _) hclosed
  | space hc hd _ ih =>
      rw [Quotes.after_cons, Quotes.next_blank hc] at hclosed
      rw [Quotes.after_cons, Quotes.next_blank hd]
      exact ih hq hclosed
  | drop hc _ ih =>
      rw [Quotes.after_cons, Quotes.next_blank hc] at hclosed
      exact ih hq hclosed

end Respaced

end AgentPipeline
