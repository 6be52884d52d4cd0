import Mathlib.Tactic.SplitIfs
import AgentPipeline.Number.Decimal
import AgentPipeline.Text.Json

/-!
# JSON texts

The text of a JSON value determines the value. The text of a value is never cut short by what
stands behind it, as long as this does not go on with digits (`NoDigit`): two values whose
texts, with something behind each, are the same are equal, and so is what stands behind them.
The proof follows the values, and uses that `unescape` reads one character of a string back
from its escape.
-/

namespace AgentPipeline.Json

/-! ### Strings -/

/-- The value of a hexadecimal digit in lower case. -/
def hexValue (c : Char) : Nat :=
  if c.isDigit then c.toNat - '0'.toNat else c.toNat - 'a'.toNat + 10

/-- The value of a hexadecimal digit is the number that it was written for. -/
theorem hexValue_hexDigit {n : Nat} (h : n < 16) : hexValue (hexDigit n) = n := by
  have hall : ∀ n < 16, hexValue (hexDigit n) = n := by decide
  exact hall n h

/-- The first character of what stands inside of a string, and the rest. -/
def unescape : List Char → Option (Char × List Char)
  | '\\' :: '"' :: r => some ('"', r)
  | '\\' :: '\\' :: r => some ('\\', r)
  | '\\' :: 'b' :: r => some ('\x08', r)
  | '\\' :: 't' :: r => some ('\t', r)
  | '\\' :: 'n' :: r => some ('\n', r)
  | '\\' :: 'f' :: r => some ('\x0c', r)
  | '\\' :: 'r' :: r => some ('\r', r)
  | '\\' :: 'u' :: _ :: _ :: a :: b :: r =>
    some (Char.ofNat (16 * hexValue a + hexValue b), r)
  | c :: r => some (c, r)
  | [] => none

/-- An escape is read back, whatever stands behind it. -/
theorem unescape_escapeChar (c : Char) (r : List Char) :
    unescape (escapeChar c ++ r) = some (c, r) := by
  unfold escapeChar
  split_ifs with hquote hbackslash hb ht hn hf hr hcontrol
  · subst hquote; rfl
  · subst hbackslash; rfl
  · subst hb; rfl
  · subst ht; rfl
  · subst hn; rfl
  · subst hf; rfl
  · subst hr; rfl
  · have hcode : 16 * hexValue (hexDigit (c.toNat / 16)) + hexValue (hexDigit (c.toNat % 16)) =
        c.toNat := by
      rw [hexValue_hexDigit (by omega), hexValue_hexDigit (by omega)]
      omega
    rw [List.cons_append, List.cons_append, List.cons_append, List.cons_append, List.cons_append,
      List.cons_append, List.nil_append, unescape, hcode, Char.ofNat_toNat]
  · rw [List.singleton_append, unescape]
    all_goals simp [hbackslash]

/-- The escapes of two characters are the same only if the characters are. -/
theorem escapeChar_append_inj {c d : Char} {r r' : List Char}
    (h : escapeChar c ++ r = escapeChar d ++ r') : c = d ∧ r = r' := by
  have hread := congrArg unescape h
  rw [unescape_escapeChar, unescape_escapeChar, Option.some.injEq, Prod.mk.injEq] at hread
  exact hread

/-- No escape starts with a quote. -/
theorem cons_ne_escapeChar {d : Char} {r r' : List Char} : '"' :: r ≠ escapeChar d ++ r' := by
  intro h
  have hread : some ('"', r) = some (d, r') := by
    rw [← unescape_escapeChar d r', ← h]
    rfl
  obtain ⟨rfl, rfl⟩ := Prod.mk.inj (Option.some.inj hread)
  exact absurd (List.cons.inj h).1 (by decide)

/-- The escapes up to the closing quote determine the characters and the rest. -/
theorem escaped_append_inj {cs ds r r' : List Char}
    (h : cs.flatMap escapeChar ++ '"' :: r = ds.flatMap escapeChar ++ '"' :: r') :
    cs = ds ∧ r = r' := by
  induction cs generalizing ds with
  | nil =>
      cases ds with
      | nil => exact ⟨rfl, (List.cons.inj h).2⟩
      | cons d ds =>
          rw [List.flatMap_cons, List.append_assoc] at h
          exact absurd h cons_ne_escapeChar
  | cons c cs ih =>
      cases ds with
      | nil =>
          rw [List.flatMap_cons, List.append_assoc] at h
          exact absurd h.symm cons_ne_escapeChar
      | cons d ds =>
          rw [List.flatMap_cons, List.flatMap_cons, List.append_assoc, List.append_assoc] at h
          obtain ⟨rfl, hrest⟩ := escapeChar_append_inj h
          obtain ⟨rfl, hr⟩ := ih hrest
          exact ⟨rfl, hr⟩

/-- A string is written as its escapes between two quotes. -/
theorem toList_quoted (s : String) :
    (quoted s).toList = '"' :: (s.toList.flatMap escapeChar ++ ['"']) := by
  simp [quoted]

/-- A quoted string is determined by any text that it is the beginning of. -/
theorem quoted_append_inj {s t : String} {r r' : List Char}
    (h : (quoted s).toList ++ r = (quoted t).toList ++ r') : s = t ∧ r = r' := by
  simp only [toList_quoted, List.cons_append, List.append_assoc, List.nil_append,
    List.cons.injEq, true_and] at h
  obtain ⟨hst, hr⟩ := escaped_append_inj h
  exact ⟨String.toList_inj.mp hst, hr⟩

/-! ### Numbers -/

/-- The text does not go on with a digit. -/
def NoDigit (r : List Char) : Prop := ∀ c ∈ r.head?, c.isDigit = false

/-- A text that starts with no digit does not go on with one. -/
theorem noDigit_cons {c : Char} {r : List Char} (h : c.isDigit = false) : NoDigit (c :: r) := by
  rintro _ ⟨⟩
  exact h

/-- The text of a number consists of digits. -/
theorem isDigit_of_mem_toString {n : Nat} {c : Char} (h : c ∈ (toString n).toList) :
    c.isDigit = true := by
  rw [Nat.toString_eq_ofList_toDigits, String.toList_ofList] at h
  exact Nat.isDigit_of_mem_toDigits (by decide) (by decide) h

/-- The digits at the front of a text are those of the number, if no others follow. -/
theorem takeWhile_toString_append {n : Nat} {r : List Char} (hr : NoDigit r) :
    ((toString n).toList ++ r).takeWhile Char.isDigit = (toString n).toList := by
  rw [List.takeWhile_append_of_pos fun c => isDigit_of_mem_toString]
  cases r with
  | nil => simp
  | cons c r => simp [hr c rfl]

/-- A number is determined by any text that it is the beginning of, if no digits follow. -/
theorem toString_append_inj {m n : Nat} {r r' : List Char} (hr : NoDigit r) (hr' : NoDigit r')
    (h : (toString m).toList ++ r = (toString n).toList ++ r') : m = n ∧ r = r' := by
  have htext : (toString m).toList = (toString n).toList := by
    rw [← takeWhile_toString_append hr, h, takeWhile_toString_append hr']
  refine ⟨toString_inj (String.toList_inj.mp htext), ?_⟩
  rw [htext] at h
  exact List.append_cancel_left h

/-! ### Values -/

/-- The character that the text of a value starts with, if it is no digit. -/
def opening : Json → Option Char
  | .number _ => none
  | .string _ => some '"'
  | .array _ => some '['
  | .object _ => some '\x7b'

/-- The text of a value starts with its opening character, or with a digit. -/
theorem exists_head (v : Json) :
    ∃ c cs, v.render.toList = c :: cs ∧
      (v.opening = some c ∧ c.isDigit = false ∨ v.opening = none ∧ c.isDigit = true) := by
  cases v with
  | number n =>
      cases htext : (toString n).toList with
      | nil => simp at htext
      | cons c cs =>
          have hdigit : c.isDigit = true := isDigit_of_mem_toString (by rw [htext]; simp)
          exact ⟨c, cs, by rw [render, htext], .inr ⟨rfl, hdigit⟩⟩
  | string s => exact ⟨'"', _, by rw [render, toList_quoted], .inl ⟨rfl, by decide⟩⟩
  | array vs => exact ⟨'[', _, by simp [render]; rfl, .inl ⟨rfl, by decide⟩⟩
  | object ms => exact ⟨'\x7b', _, by simp [render]; rfl, .inl ⟨rfl, by decide⟩⟩

/-- Values whose texts are the same, with something behind each, are of the same sort. -/
theorem opening_eq {v w : Json} {r r' : List Char}
    (h : v.render.toList ++ r = w.render.toList ++ r') : v.opening = w.opening := by
  obtain ⟨c, cs, hv, hc⟩ := exists_head v
  obtain ⟨d, ds, hw, hd⟩ := exists_head w
  rw [hv, hw] at h
  obtain rfl : c = d := (List.cons.inj h).1
  rcases hc with ⟨hc, hdigit⟩ | ⟨hc, hdigit⟩ <;> rcases hd with ⟨hd, hdigit'⟩ | ⟨hd, hdigit'⟩
  · rw [hc, hd]
  · rw [hdigit] at hdigit'
    cases hdigit'
  · rw [hdigit] at hdigit'
    cases hdigit'
  · rw [hc, hd]

/-- The text of a value starts with no closing bracket. -/
theorem render_append_ne {v : Json} {c : Char} {r r' : List Char} (hc : c ∈ [']', '\x7d']) :
    v.render.toList ++ r ≠ c :: r' := by
  intro h
  obtain ⟨d, ds, hv, hd⟩ := exists_head v
  rw [hv] at h
  obtain rfl : d = c := (List.cons.inj h).1
  have hdigit : d.isDigit = false := by
    rw [List.mem_cons, List.mem_singleton] at hc
    rcases hc with rfl | rfl <;> rfl
  rcases hd with ⟨hopening, -⟩ | ⟨-, htrue⟩
  · cases v <;> simp [opening] at hopening <;> subst hopening <;> simp at hc
  · rw [hdigit] at htrue
    cases htrue

/-! ### Lists of texts -/

section Lists

variable {α : Type} {text : α → String} {close : Char}

/-- The text of a value determines it, whatever stands behind the text. -/
def Determined (text : α → String) (a : α) : Prop :=
  ∀ (b : α) (r r' : List Char), NoDigit r → NoDigit r' →
    (text a).toList ++ r = (text b).toList ++ r' → a = b ∧ r = r'

/-- The texts of some values, each behind a comma. -/
def behindCommas (text : α → String) (l : List α) : List Char :=
  l.flatMap fun a => ',' :: (text a).toList

/-- The first of some texts stands behind a comma, and the others behind it. -/
theorem behindCommas_cons_append (a : α) (l : List α) (r : List Char) :
    behindCommas text (a :: l) ++ r = ',' :: ((text a).toList ++ (behindCommas text l ++ r)) := by
  simp [behindCommas]

/-- Texts between commas are the first one and the others behind commas. -/
theorem toList_intercalate_cons (a : α) (l : List α) :
    (",".intercalate ((a :: l).map text)).toList = (text a).toList ++ behindCommas text l := by
  induction l generalizing a with
  | nil => simp [behindCommas]
  | cons b l ih =>
      rw [List.map_cons, List.map_cons, String.intercalate_cons_cons, ← List.map_cons,
        String.toList_append, String.toList_append, ih]
      simp [behindCommas]

/-- Behind a value no digit follows, but a comma or what closes the list. -/
theorem noDigit_behindCommas (l : List α) {r : List Char} (hclose : close.isDigit = false) :
    NoDigit (behindCommas text l ++ close :: r) := by
  cases l with
  | nil => exact noDigit_cons hclose
  | cons a l => exact noDigit_cons (by decide)

/-- Texts behind commas, up to what closes them, determine the values of a list. -/
theorem behindCommas_append_inj {l l' : List α} {r r' : List Char}
    (hclose : close.isDigit = false) (hcomma : close ≠ ',') (hl : ∀ a ∈ l, Determined text a)
    (h : behindCommas text l ++ close :: r = behindCommas text l' ++ close :: r') :
    l = l' ∧ r = r' := by
  induction l generalizing l' with
  | nil =>
      cases l' with
      | nil => exact ⟨rfl, (List.cons.inj h).2⟩
      | cons b l' =>
          rw [behindCommas_cons_append] at h
          exact absurd (List.cons.inj h).1 hcomma
  | cons a l ih =>
      rw [List.forall_mem_cons] at hl
      cases l' with
      | nil =>
          rw [behindCommas_cons_append] at h
          exact absurd (List.cons.inj h).1.symm hcomma
      | cons b l' =>
          rw [behindCommas_cons_append, behindCommas_cons_append, List.cons.injEq] at h
          obtain ⟨rfl, hrest⟩ := hl.1 b _ _ (noDigit_behindCommas _ hclose)
            (noDigit_behindCommas _ hclose) h.2
          obtain ⟨rfl, hr⟩ := ih hl.2 hrest
          exact ⟨rfl, hr⟩

/-- A list in brackets is determined by its text if its members are, and none of them starts
with the closing bracket. -/
theorem intercalate_append_inj {l l' : List α} {r r' : List Char}
    (hclose : close.isDigit = false) (hcomma : close ≠ ',')
    (hne : ∀ (a : α) (r r' : List Char), (text a).toList ++ r ≠ close :: r')
    (hl : ∀ a ∈ l, Determined text a)
    (h : (",".intercalate (l.map text)).toList ++ close :: r =
      (",".intercalate (l'.map text)).toList ++ close :: r') : l = l' ∧ r = r' := by
  cases l with
  | nil =>
      cases l' with
      | nil => exact ⟨rfl, (List.cons.inj h).2⟩
      | cons b l' =>
          rw [toList_intercalate_cons, List.append_assoc] at h
          exact absurd h.symm (hne _ _ _)
  | cons a l =>
      rw [List.forall_mem_cons] at hl
      cases l' with
      | nil =>
          rw [toList_intercalate_cons, List.append_assoc] at h
          exact absurd h (hne _ _ _)
      | cons b l' =>
          rw [toList_intercalate_cons, toList_intercalate_cons, List.append_assoc,
            List.append_assoc] at h
          obtain ⟨rfl, hrest⟩ := hl.1 b _ _ (noDigit_behindCommas _ hclose)
            (noDigit_behindCommas _ hclose) h
          obtain ⟨rfl, hr⟩ := behindCommas_append_inj hclose hcomma hl.2 hrest
          exact ⟨rfl, hr⟩

end Lists

/-! ### All values -/

/-- The text of a member of an object. -/
def memberText (m : String × Json) : String := quoted m.1 ++ ":" ++ m.2.render

/-- The items of an array are rendered one by one. -/
theorem renderItems_eq_map (vs : List Json) : renderItems vs = vs.map render := by
  induction vs with
  | nil => rfl
  | cons v vs ih => rw [renderItems, ih, List.map_cons]

/-- The members of an object are rendered one by one. -/
theorem renderMembers_eq_map (ms : List (String × Json)) :
    renderMembers ms = ms.map memberText := by
  induction ms with
  | nil => rfl
  | cons m ms ih => rw [renderMembers, ih, List.map_cons, memberText]

/-- A member is its key in quotes, a colon and its value. -/
theorem toList_memberText (m : String × Json) (r : List Char) :
    (memberText m).toList ++ r = (quoted m.1).toList ++ ':' :: (m.2.render.toList ++ r) := by
  simp [memberText]

/-- A member is determined by its text if its value is. -/
theorem determined_memberText {m : String × Json} (h : Determined render m.2) :
    Determined memberText m := by
  intro m' r r' hr hr' htext
  rw [toList_memberText, toList_memberText] at htext
  obtain ⟨hkey, hrest⟩ := quoted_append_inj htext
  obtain ⟨hvalue, hr⟩ := h _ _ _ hr hr' (List.cons.inj hrest).2
  exact ⟨Prod.ext hkey hvalue, hr⟩

/-- The text of a number determines it. -/
theorem determined_number (n : Nat) : Determined render (number n) := by
  intro w r r' hr hr' h
  have hopening := opening_eq h
  cases w with
  | number m =>
      rw [render, render] at h
      obtain ⟨rfl, hrest⟩ := toString_append_inj hr hr' h
      exact ⟨rfl, hrest⟩
  | string | array | object => cases hopening

/-- The text of a string determines it. -/
theorem determined_string (s : String) : Determined render (string s) := by
  intro w r r' hr hr' h
  have hopening := opening_eq h
  cases w with
  | string t =>
      rw [render, render] at h
      obtain ⟨rfl, hrest⟩ := quoted_append_inj h
      exact ⟨rfl, hrest⟩
  | number | array | object => cases hopening

/-- The text of an array determines it if those of its items do. -/
theorem determined_array {vs : List Json} (hvs : ∀ v ∈ vs, Determined render v) :
    Determined render (array vs) := by
  intro w r r' hr hr' h
  have hopening := opening_eq h
  cases w with
  | array ws =>
      simp only [render, renderItems_eq_map, String.toList_append, List.append_assoc,
        String.reduceToList, List.cons_append, List.nil_append, List.cons.injEq, true_and] at h
      obtain ⟨rfl, hrest⟩ := intercalate_append_inj (by decide) (by decide)
        (fun _ _ _ => render_append_ne (by simp)) hvs h
      exact ⟨rfl, hrest⟩
  | number | string | object => cases hopening

/-- The text of an object determines it if those of its values do. -/
theorem determined_object {ms : List (String × Json)} (hms : ∀ m ∈ ms, Determined render m.2) :
    Determined render (object ms) := by
  intro w r r' hr hr' h
  have hopening := opening_eq h
  cases w with
  | object ns =>
      have hne : ∀ (m : String × Json) (r r' : List Char),
          (memberText m).toList ++ r ≠ '\x7d' :: r' := by
        intro m r r' htext
        rw [toList_memberText, toList_quoted] at htext
        exact absurd (List.cons.inj htext).1 (by decide)
      simp only [render, renderMembers_eq_map, String.toList_append, List.append_assoc,
        String.reduceToList, List.cons_append, List.nil_append, List.cons.injEq, true_and] at h
      obtain ⟨rfl, hrest⟩ := intercalate_append_inj (by decide) (by decide) hne
        (fun m hm => determined_memberText (hms m hm)) h
      exact ⟨rfl, hrest⟩
  | number | string | array => cases hopening

/-- The text of each value determines it. -/
theorem determined_render : ∀ v : Json, Determined render v
  | .number n => determined_number n
  | .string s => determined_string s
  | .array vs => determined_array fun v _ => determined_render v
  | .object ms => determined_object fun m _ => determined_render m.2
termination_by v => sizeOf v
decreasing_by
  · have hlt := List.sizeOf_lt_of_mem ‹v ∈ vs›
    simp only [array.sizeOf_spec]
    omega
  · have hlt := List.sizeOf_lt_of_mem ‹m ∈ ms›
    have hvalue : sizeOf m.2 < sizeOf m := by
      rcases m with ⟨key, value⟩
      simp only [Prod.mk.sizeOf_spec]
      omega
    simp only [object.sizeOf_spec]
    omega

/-- **JSON texts are unambiguous**: different values have different texts. -/
theorem render_injective : Function.Injective render := by
  intro v w h
  exact (determined_render v w [] [] nofun nofun (by rw [h])).1

end AgentPipeline.Json
