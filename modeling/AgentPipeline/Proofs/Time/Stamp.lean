import AgentPipeline.Proofs.Time.Offset

/-!
# Stamps

A **stamp** is a text of the form `YEAR-MM-DD HH:MM:SS`, with a sign in front of the year or without
one. The moments of the dates covered have such texts (`Moment.text_eq`). What reads a date and a
time finds the parts of a stamp again (`dateTime?_stamp`), and what reads a date and a time as the
internet writes them fails on stamps, which end where an offset from Coordinated Universal Time has
to stand (`internetTime?_stamp`).
-/

namespace AgentPipeline

/-- Numerals of two digits. -/
structure TwoDigits extends Numeral where
  length_eq : digits.length = 2

/-- A number below a hundred in two digits. -/
def TwoDigits.ofNat (n : Nat) (h : n < 100) : TwoDigits :=
  ⟨Numeral.padded 2 n, Numeral.length_padded (by decide) h⟩

/-- A number in two digits has its value. -/
@[simp] theorem TwoDigits.value_ofNat {n : Nat} (h : n < 100) : (ofNat n h).value = n :=
  Numeral.value_padded 2 n

/-- The parts of the text of a moment. -/
structure Stamp where
  sign : Option Char
  year : Numeral
  month : TwoDigits
  day : TwoDigits
  hour : TwoDigits
  minute : TwoDigits
  second : TwoDigits

namespace Stamp

/-- The characters behind the year. -/
def behindYear (s : Stamp) : List Char :=
  '-' :: (s.month.digits ++ '-' :: (s.day.digits ++ ' ' :: (s.hour.digits ++
    ':' :: (s.minute.digits ++ ':' :: s.second.digits))))

def chars (s : Stamp) : List Char := s.sign.toList ++ (s.year.digits ++ s.behindYear)

def text (s : Stamp) : String := String.ofList s.chars

/-- The date of a stamp. -/
def date (s : Stamp) : Date where
  year := if s.sign = some '-' then -(s.year.value : Int) else s.year.value
  month := s.month.value
  day := s.day.value

/-- Stamps with a year of four digits or a negative year. -/
def IsReadable (s : Stamp) : Prop :=
  s.sign = none ∧ s.year.digits.length = 4 ∨ s.sign = some '-'

end Stamp

/-! ### The texts of moments -/

namespace Moment

/-- The moments that have a date that is covered and a time of day. -/
structure IsCovered (m : Moment) : Prop where
  isValid_date : m.date.isValid = true
  hour_lt : m.hour < 24
  minute_lt : m.minute < 60
  second_le : m.second ≤ 60

variable {m : Moment}

/-- The month of a covered moment has two digits at most. -/
theorem month_date_lt (m : Moment) : m.date.month < 100 :=
  (Date.isCalendar_ofDays m.days).month_le.trans_lt (by decide)

/-- So has the day. -/
theorem day_date_lt (m : Moment) : m.date.day < 100 :=
  ((Date.isCalendar_ofDays m.days).day_le.trans (Date.daysInMonth_bounds _ _).2).trans_lt
    (by decide)

/-- The sign of a year, where there is one. -/
def yearSign (year : Int) : Option Char :=
  if 0 ≤ year ∧ year ≤ 9999 then none else if year < 0 then some '-' else some '+'

/-- The parts of the text of a moment. -/
def stamp (m : Moment) (h : m.IsCovered) : Stamp where
  sign := yearSign m.date.year
  year := Numeral.padded 4 m.date.year.natAbs
  month := .ofNat m.date.month m.month_date_lt
  day := .ofNat m.date.day m.day_date_lt
  hour := .ofNat m.hour (h.hour_lt.trans (by decide))
  minute := .ofNat m.minute (h.minute_lt.trans (by decide))
  second := .ofNat m.second (h.second_le.trans_lt (by decide))

/-- A padded number is written as a padded numeral. -/
theorem toList_padded (width n : Nat) :
    (padded width n).toList = (Numeral.padded width n).digits := by
  have hdigits : (toString n).toList = Nat.toDigits 10 n := by
    rw [Nat.toString_eq_ofList_toDigits, String.toList_ofList]
  have hlength : (toString n).length = (Nat.toDigits 10 n).length := by
    rw [← String.length_toList, hdigits]
  rw [padded, Numeral.padded, String.toList_append, String.toList_ofList, hdigits, hlength]

/-- A year is its sign and the four digits or more of its absolute value. -/
theorem toList_yearText (year : Int) :
    (yearText year).toList = (yearSign year).toList ++ (Numeral.padded 4 year.natAbs).digits := by
  unfold yearText yearSign
  split
  · next h =>
    have habs : year.toNat = year.natAbs := by omega
    rw [toList_padded, habs, Option.toList_none, List.nil_append]
  · split <;> rw [String.toList_append, toList_padded] <;> rfl

/-- **The text of a moment** is a stamp. -/
theorem text_eq (h : m.IsCovered) : m.text = (m.stamp h).text := by
  rw [← String.toList_inj, Stamp.text, String.toList_ofList]
  simp [text, Stamp.chars, Stamp.behindYear, stamp, TwoDigits.ofNat, toList_yearText, toList_padded]

/-- The stamp of a moment up to the year 9999 is readable. -/
theorem isReadable_stamp (h : m.IsCovered) (hyear : m.date.year ≤ 9999) :
    (m.stamp h).IsReadable := by
  unfold Stamp.IsReadable stamp yearSign
  by_cases hpos : 0 ≤ m.date.year
  · exact .inl ⟨if_pos ⟨hpos, hyear⟩, Numeral.length_padded (by decide) (by omega)⟩
  · exact .inr (by rw [if_neg (by omega), if_pos (by omega)])

/-- The stamp of a moment has the date of the moment. -/
theorem date_stamp (h : m.IsCovered) : (m.stamp h).date = m.date := by
  have hyear : (m.stamp h).date.year = m.date.year := by
    simp only [stamp, Stamp.date, yearSign, Numeral.value_padded]
    by_cases hcovered : 0 ≤ m.date.year ∧ m.date.year ≤ 9999
    · rw [if_pos hcovered, if_neg (by simp)]
      omega
    · rw [if_neg hcovered]
      by_cases hneg : m.date.year < 0
      · rw [if_pos hneg, if_pos rfl]
        omega
      · rw [if_neg hneg, if_neg (by simp)]
        omega
  have hmonth : (m.stamp h).date.month = m.date.month := TwoDigits.value_ofNat m.month_date_lt
  have hday : (m.stamp h).date.day = m.date.day := TwoDigits.value_ofNat m.day_date_lt
  calc (m.stamp h).date
      = ⟨(m.stamp h).date.year, (m.stamp h).date.month, (m.stamp h).date.day⟩ := rfl
    _ = m.date := by rw [hyear, hmonth, hday]

end Moment

/-! ### Reading stamps -/

namespace Deadline

variable {c : Char} {cs rest : List Char} {least most : Nat}

/-- A numeral is read as its value if it has the digits asked for and no others follow. -/
theorem number?_digits (n : Numeral) (hleast : least ≤ n.digits.length)
    (hmost : n.digits.length ≤ most)
    (hrest : n.digits.length = most ∨ ∀ c ∈ rest.head?, c.isDigit = false) :
    number? least most (n.digits ++ rest) = some (n.value, rest) := by
  have hbehind : (rest.take (most - n.digits.length)).takeWhile Char.isDigit = [] := by
    rcases hrest with hall | hhead
    · rw [hall, Nat.sub_self, List.take_zero, List.takeWhile_nil]
    · cases rest with
      | nil => rw [List.take_nil, List.takeWhile_nil]
      | cons c cs =>
          cases most - n.digits.length with
          | zero => rfl
          | succ k =>
              rw [List.take_succ_cons, List.takeWhile_cons_of_neg (by simp [hhead c rfl])]
  have hrun : ((n.digits ++ rest).take most).takeWhile Char.isDigit = n.digits := by
    rw [List.take_append, List.take_of_length_le hmost,
      List.takeWhile_append_of_pos n.isDigit, hbehind, List.append_nil]
  simp only [number?, hrun, if_neg (Nat.not_lt.mpr hleast), n.digitsToNat_digits,
    List.drop_left, Option.map_some]

/-- Two digits are read as their value. -/
theorem number?_two (n : TwoDigits) (rest : List Char) :
    number? 2 2 (n.digits ++ rest) = some (n.value, rest) :=
  number?_digits n.toNumeral n.length_eq.ge n.length_eq.le (.inl n.length_eq)

/-- A numeral does not start with white space. -/
theorem trimStart_digits (n : Numeral) (rest : List Char) :
    Text.trimStart (n.digits ++ rest) = n.digits ++ rest := by
  obtain ⟨c, ds, hds⟩ := List.exists_cons_of_ne_nil n.ne_nil
  have hc : Text.isBlank c = false :=
    Text.isBlank_of_isDigit (n.isDigit c (by rw [hds]; exact List.mem_cons_self))
  rw [hds, List.cons_append, Text.trimStart, List.dropWhile_cons_of_neg (by simp [hc])]

/-- A field of two digits is read as its value. -/
theorem field?_two (n : TwoDigits) (rest : List Char) :
    field? (n.digits ++ rest) = some (n.value, rest) := by
  rw [field?, trimStart_digits]
  exact number?_digits n.toNumeral (n.length_eq.ge.trans' (by decide)) n.length_eq.le
    (.inl n.length_eq)

/-- What stands behind a character at the front. -/
@[simp] theorem behind?_cons (c : Char) (cs : List Char) : behind? c (c :: cs) = some cs :=
  if_pos rfl

/-- A year of four digits at most. -/
theorem year?_digits (n : Numeral) (hlength : n.digits.length ≤ 4)
    (hrest : ∀ c ∈ rest.head?, c.isDigit = false) :
    year? (n.digits ++ rest) = some ((n.value : Int), rest) := by
  have hnumber : number? 1 4 (n.digits ++ rest) = some (n.value, rest) :=
    number?_digits n (List.length_pos_of_ne_nil n.ne_nil) hlength (.inr hrest)
  rw [year?, trimStart_digits]
  split
  · next cs hcs =>
    obtain ⟨c, ds, hds⟩ := List.exists_cons_of_ne_nil n.ne_nil
    rw [hds, List.cons_append, List.cons.injEq] at hcs
    have hdigit := n.isDigit c (by rw [hds]; exact List.mem_cons_self)
    rw [hcs.1] at hdigit
    cases hdigit
  · rw [hnumber, Option.map_some]

/-- A minus sign and a year of any number of digits. -/
theorem year?_minus (n : Numeral) (hrest : ∀ c ∈ rest.head?, c.isDigit = false) :
    year? ('-' :: (n.digits ++ rest)) = some (-(n.value : Int), rest) := by
  have hnumber : number? 1 (n.digits ++ rest).length (n.digits ++ rest) = some (n.value, rest) :=
    number?_digits n (List.length_pos_of_ne_nil n.ne_nil) (by simp) (.inr hrest)
  have htrim : Text.trimStart ('-' :: (n.digits ++ rest)) = '-' :: (n.digits ++ rest) :=
    List.dropWhile_cons_of_neg (by decide)
  simp only [year?, htrim, hnumber, Option.map_some]

/-- The year of a readable stamp is read with its sign. -/
theorem year?_stamp {s : Stamp} (h : s.IsReadable) :
    year? s.chars = some (s.date.year, s.behindYear) := by
  have hhyphen : ∀ c ∈ s.behindYear.head?, c.isDigit = false := by
    rintro c hc
    obtain rfl : '-' = c := Option.some.inj hc
    decide
  rcases h with ⟨hsign, hlength⟩ | hsign
  · rw [Stamp.chars, Stamp.date, hsign]
    exact year?_digits s.year hlength.le hhyphen
  · rw [Stamp.chars, Stamp.date, hsign]
    exact year?_minus s.year hhyphen

/-- **The parts of a stamp** are read again. -/
theorem dateTime?_stamp {s : Stamp} (h : s.IsReadable) :
    dateTime? s.chars = moment? s.date s.hour.value s.minute.value s.second.value := by
  have hsecond := field?_two s.second []
  rw [List.append_nil] at hsecond
  have hspace (cs : List Char) : field? (' ' :: cs) = field? cs := by
    rw [field?, field?, Text.trimStart, List.dropWhile_cons_of_pos (by decide), Text.trimStart]
  simp only [dateTime?, datePart?, year?_stamp h, Stamp.behindYear, Option.bind_eq_bind,
    Option.bind_some, Option.pure_def, behind?_cons, field?_two, hspace, hsecond, if_true]
  rfl

/-- Where no digit stands no number is read. -/
theorem number?_of_not_digit (hleast : 0 < least) (h : c.isDigit = false) (cs : List Char) :
    number? least most (c :: cs) = none := by
  have hrun : ((c :: cs).take most).takeWhile Char.isDigit = [] := by
    cases most with
    | zero => rfl
    | succ k => rw [List.take_succ_cons, List.takeWhile_cons_of_neg (by simp [h])]
  simp only [number?, hrun, List.length_nil, if_pos hleast]

/-- **A stamp is no date and time of the internet**, as it ends behind the second. -/
theorem internetTime?_stamp {s : Stamp} (h : s.IsReadable) : internetTime? s.chars = none := by
  rcases h with ⟨hsign, hlength⟩ | hsign
  · have hyear : number? 4 4 s.chars = some (s.year.value, s.behindYear) := by
      rw [Stamp.chars, hsign]
      exact number?_digits s.year hlength.ge hlength.le (.inl hlength)
    have hsecond := number?_two s.second []
    rw [List.append_nil] at hsecond
    have hspace (cs : List Char) : dropSeparator? (' ' :: cs) = some cs := rfl
    have hend : (dropFraction? []).bind zone? = none := rfl
    simp only [internetTime?, hyear, Stamp.behindYear, Option.bind_eq_bind, Option.bind_some,
      behind?_cons, number?_two, hspace, hsecond, ← Option.bind_assoc, hend, Option.bind_none]
  · have hyear : number? 4 4 s.chars = none := by
      rw [Stamp.chars, hsign]
      exact number?_of_not_digit (by decide) (by decide) _
    rw [internetTime?, hyear]
    rfl

/-- A stamp behind a plus sign is no offset, as a hyphen is no unit. -/
theorem offset?_stamp (s : Stamp) : offset? (s.year.digits ++ s.behindYear) = none := by
  rw [offset?, sumFrom_numeral, Stamp.behindYear, sumFrom, if_neg (by decide)]
  rfl

end Deadline

end AgentPipeline
