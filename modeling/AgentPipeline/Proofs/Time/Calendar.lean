import AgentPipeline.Time.Calendar
import Mathlib.Order.Monotone.Basic
import Mathlib.Order.SuccPred.Basic
import Mathlib.Tactic.IntervalCases

/-!
# Counting days

Years start in March here, so that the leap day is the last day of its year, and months are numbered
through: `monthNumber d` is the number of the month of a date. `daysBeforeYear` and
`daysBeforeMonth` count the days in front of a year and of a month. A month has the days between the
counts of itself and of the next one (`daysBeforeMonth_succ`), so the counts grow from month to
month.

The count of a date is the count of its month and the days of that month (`toDays_eq`). Later dates
have greater counts (`toDays_lt`), the next date has the next count (`toDays_next`), and every count
is that of exactly one date (`toDays_ofDays`, `ofDays_toDays`). The dates covered are those with
counts from a first to a last one (`isValid_ofDays_iff`).

The second of a moment is counted in the same way (`Moment.seconds_ofSeconds`).
-/

namespace AgentPipeline.Date

/-! ### Years and months -/

/-- The days in front of the first of March of a year, counted from the year 0. -/
def daysBeforeYear (year : Int) : Int := 365 * year + year / 4 - year / 100 + year / 400

/-- The days in front of a month, where the months are numbered from March of the year 0. -/
def daysBeforeMonth (number : Int) : Int :=
  daysBeforeYear (number / 12) + (153 * (number % 12) + 2) / 5

/-- The number of the month of a date. -/
def monthNumber (d : Date) : Int := 12 * d.year + d.month - 3

/-- Dates of the calendar, in whatever year. -/
structure IsCalendar (d : Date) : Prop where
  month_pos : 1 ≤ d.month
  month_le : d.month ≤ 12
  day_pos : 1 ≤ d.day
  day_le : d.day ≤ daysInMonth d.year d.month

/-- The dates covered are those of the calendar whose year is covered. -/
theorem isValid_iff {d : Date} :
    d.isValid = true ↔ d.IsCalendar ∧ firstYear ≤ d.year ∧ d.year ≤ lastYear := by
  simp only [isValid, Bool.and_eq_true, decide_eq_true_eq]
  constructor
  · rintro ⟨⟨⟨⟨⟨hfirst, hlast⟩, hmonth⟩, hmonth'⟩, hday⟩, hday'⟩
    exact ⟨⟨hmonth, hmonth', hday, hday'⟩, hfirst, hlast⟩
  · rintro ⟨⟨hmonth, hmonth', hday, hday'⟩, hfirst, hlast⟩
    exact ⟨⟨⟨⟨⟨hfirst, hlast⟩, hmonth⟩, hmonth'⟩, hday⟩, hday'⟩

/-- A year has 365 days, or 366 if its February, in the next year of the calendar, has a leap
day. -/
theorem daysBeforeYear_pred (year : Int) :
    daysBeforeYear year =
      daysBeforeYear (year - 1) + if isLeapYear year then 366 else 365 := by
  simp only [daysBeforeYear, isLeapYear, Bool.and_eq_true, Bool.or_eq_true, beq_iff_eq,
    bne_iff_ne, ne_eq]
  split <;> omega

/-- January and February belong to the year that started in the March before. -/
theorem div_mod_of_le (year : Int) {month : Nat} (hpos : 1 ≤ month) (hle : month ≤ 2) :
    (12 * year + month - 3) / 12 = year - 1 ∧ (12 * year + month - 3) % 12 = month + 9 := by
  omega

/-- The other months belong to the year that starts in March. -/
theorem div_mod_of_gt (year : Int) {month : Nat} (hgt : 2 < month) (hle : month ≤ 12) :
    (12 * year + month - 3) / 12 = year ∧ (12 * year + month - 3) % 12 = month - 3 := by
  omega

/-- **The days of a month** stand between its count and that of the next one. -/
theorem daysBeforeMonth_succ (year : Int) {month : Nat} (hpos : 1 ≤ month) (hle : month ≤ 12) :
    daysBeforeMonth (12 * year + month - 3 + 1) =
      daysBeforeMonth (12 * year + month - 3) + daysInMonth year month := by
  by_cases hfebruary : month = 2
  · -- the month behind February is the first one of the next year
    subst hfebruary
    have hnext : (12 * year + (2 : Nat) - 3 + 1) / 12 = year ∧
        (12 * year + (2 : Nat) - 3 + 1) % 12 = 0 := by omega
    have hthis := div_mod_of_le year hpos (le_refl 2)
    rw [daysBeforeMonth, daysBeforeMonth, hnext.1, hnext.2, hthis.1, hthis.2,
      daysBeforeYear_pred year, daysInMonth]
    cases isLeapYear year with
    | true =>
        simp only [if_true]
        omega
    | false =>
        simp only [if_true, Bool.false_eq_true, if_false]
        omega
  · have hnext : (12 * year + month - 3 + 1) / 12 = (12 * year + month - 3) / 12 ∧
        (12 * year + month - 3 + 1) % 12 = (12 * year + month - 3) % 12 + 1 := by omega
    rw [daysBeforeMonth, daysBeforeMonth, hnext.1, hnext.2]
    interval_cases month <;> simp [daysInMonth] at hfebruary ⊢ <;> omega

/-- A month has from 28 to 31 days. -/
theorem daysInMonth_bounds (year : Int) (month : Nat) :
    28 ≤ daysInMonth year month ∧ daysInMonth year month ≤ 31 := by
  unfold daysInMonth
  split
  · split <;> decide
  · split <;> decide

/-- A month has some days, so the counts grow. -/
theorem daysBeforeMonth_lt_succ (number : Int) :
    daysBeforeMonth number < daysBeforeMonth (number + 1) := by
  obtain ⟨year, month, hpos, hle, hnumber⟩ : ∃ (year : Int) (month : Nat), 1 ≤ month ∧
      month ≤ 12 ∧ number = 12 * year + month - 3 :=
    ⟨(number + 2) / 12, ((number + 2) % 12).toNat + 1, by omega, by omega, by omega⟩
  have hdays := (daysInMonth_bounds year month).1
  rw [hnumber, daysBeforeMonth_succ year hpos hle]
  omega

/-- No days are in front of a month that are not in front of the later ones. -/
theorem daysBeforeMonth_mono {m n : Int} (h : m ≤ n) : daysBeforeMonth m ≤ daysBeforeMonth n :=
  (strictMono_int_of_lt_succ daysBeforeMonth_lt_succ).monotone h

/-! ### The count of a date -/

/-- **The count of a date** is the count of its month and the days of that month. -/
theorem toDays_eq {d : Date} (hpos : 1 ≤ d.month) (hle : d.month ≤ 12) :
    d.toDays = daysBeforeMonth d.monthNumber + d.day - 1 - 719468 := by
  simp only [toDays, daysBeforeMonth, daysBeforeYear, monthNumber]
  by_cases hmonth : d.month ≤ 2
  · have hnumber := div_mod_of_le d.year hpos hmonth
    rw [if_pos hmonth, if_pos hmonth, hnumber.1, hnumber.2]
    omega
  · have hnumber := div_mod_of_gt d.year (by omega) hle
    rw [if_neg hmonth, if_neg hmonth, hnumber.1, hnumber.2]
    omega

/-- A date stands in its month. -/
theorem IsCalendar.toDays_lt_succ {d : Date} (h : d.IsCalendar) :
    d.toDays + 719468 < daysBeforeMonth (d.monthNumber + 1) := by
  have hday := h.day_le
  rw [toDays_eq h.month_pos h.month_le, monthNumber,
    daysBeforeMonth_succ d.year h.month_pos h.month_le]
  omega

/-- **Later months have greater counts.** -/
theorem toDays_lt {d e : Date} (hd : d.IsCalendar) (he : e.IsCalendar)
    (h : d.monthNumber < e.monthNumber) : d.toDays < e.toDays := by
  have hmonths := daysBeforeMonth_mono (Int.add_one_le_of_lt h)
  have hlast := hd.toDays_lt_succ
  have hday := he.day_pos
  rw [toDays_eq he.month_pos he.month_le]
  omega

/-- No two dates have the same count. -/
theorem toDays_inj {d e : Date} (hd : d.IsCalendar) (he : e.IsCalendar)
    (h : d.toDays = e.toDays) : d = e := by
  have hnumber : d.monthNumber = e.monthNumber := by
    rcases lt_trichotomy d.monthNumber e.monthNumber with hlt | heq | hgt
    · exact absurd h (ne_of_lt (toDays_lt hd he hlt))
    · exact heq
    · exact absurd h.symm (ne_of_lt (toDays_lt he hd hgt))
  have hday : d.day = e.day := by
    rw [toDays_eq hd.month_pos hd.month_le, toDays_eq he.month_pos he.month_le, hnumber] at h
    omega
  obtain ⟨year, month, day⟩ := d
  obtain ⟨year', month', day'⟩ := e
  have hmonth := hd.month_le
  have hmonth' := he.month_le
  have hpos := hd.month_pos
  have hpos' := he.month_pos
  simp only [monthNumber] at hnumber hday hmonth hmonth' hpos hpos'
  obtain rfl : year = year' := by omega
  obtain rfl : month = month' := by omega
  rw [hday]

/-! ### The next date -/

/-- The date behind a date. -/
def next (d : Date) : Date :=
  if d.day < daysInMonth d.year d.month then ⟨d.year, d.month, d.day + 1⟩
  else if d.month < 12 then ⟨d.year, d.month + 1, 1⟩
  else ⟨d.year + 1, 1, 1⟩

/-- The first of January 1970 has the count 0, and **the next date has the next count**. -/
theorem toDays_next : (⟨1970, 1, 1⟩ : Date).toDays = 0 ∧
    ∀ d : Date, d.IsCalendar → d.next.toDays = d.toDays + 1 := by
  refine ⟨by decide, fun d h => ?_⟩
  have hpos := h.month_pos
  have hle := h.month_le
  have hsucc := daysBeforeMonth_succ d.year hpos hle
  rw [toDays_eq hpos hle, next]
  split
  · have hnext := toDays_eq (d := ⟨d.year, d.month, d.day + 1⟩) hpos hle
    rw [hnext]
    simp only [monthNumber]
    omega
  · have hday : d.day = daysInMonth d.year d.month := by
      have := h.day_le
      omega
    split
    · next hmonth =>
      have hnext : (⟨d.year, d.month + 1, 1⟩ : Date).toDays =
          daysBeforeMonth (monthNumber ⟨d.year, d.month + 1, 1⟩) + (1 : Nat) - 1 - 719468 :=
        toDays_eq (by simp) (Nat.succ_le_of_lt hmonth)
      have hnumber : monthNumber ⟨d.year, d.month + 1, 1⟩ = 12 * d.year + d.month - 3 + 1 := by
        simp only [monthNumber]
        omega
      rw [hnext, hnumber, hsucc, monthNumber, hday]
      omega
    · next hmonth =>
      have hnext : (⟨d.year + 1, 1, 1⟩ : Date).toDays =
          daysBeforeMonth (monthNumber ⟨d.year + 1, 1, 1⟩) + (1 : Nat) - 1 - 719468 :=
        toDays_eq (by simp) (by simp)
      have hnumber : monthNumber ⟨d.year + 1, 1, 1⟩ = 12 * d.year + d.month - 3 + 1 := by
        simp only [monthNumber]
        omega
      rw [hnext, hnumber, hsucc, monthNumber, hday]
      omega

/-! ### The year of a day -/

/-- The year of a day, both counted from the start of a period of 400 years. -/
def yearOfEra (day : Int) : Int := (day - day / 1460 + day / 36524 - day / 146096) / 365

/-- The day `v` of the year `u` of the four years `c` of the century `g`. A century has 36524 days
and four years have 1461; the last of four years has a leap day, but not the last of a century. The
last day of the period, the leap day of its last century, is left out. -/
structure IsDayOf (g c u v : Int) : Prop where
  century : 0 ≤ g ∧ g ≤ 3
  cycle : 0 ≤ c ∧ c ≤ 24
  year : 0 ≤ u ∧ u ≤ 3
  day : 0 ≤ v ∧ (v ≤ 364 ∨ v = 365 ∧ u = 3 ∧ c ≤ 23)

/-- Every day of a period but its last one lies in a century, in four years of it, and in a year of
these. -/
theorem exists_isDayOf {n : Int} (hpos : 0 ≤ n) (hlt : n < 146096) :
    ∃ g c u v, IsDayOf g c u v ∧ n = 36524 * g + 1461 * c + 365 * u + v := by
  by_cases hleap : n % 36524 % 1461 = 1460
  · exact ⟨n / 36524, n % 36524 / 1461, 3, 365,
      ⟨by omega, by omega, by omega, by omega⟩, by omega⟩
  · exact ⟨n / 36524, n % 36524 / 1461, n % 36524 % 1461 / 365, n % 36524 % 1461 % 365,
      ⟨by omega, by omega, by omega, by omega⟩, by omega⟩

namespace IsDayOf

variable {g c u v : Int}

/-- The year of a day is the one that it lies in. -/
theorem yearOfEra_eq (h : IsDayOf g c u v) :
    yearOfEra (36524 * g + 1461 * c + 365 * u + v) = 100 * g + 4 * c + u := by
  obtain ⟨hg, hc, hu, hv⟩ := h
  have hcentury : (36524 * g + 1461 * c + 365 * u + v) / 36524 = g := by omega
  have hera : (36524 * g + 1461 * c + 365 * u + v) / 146096 = 0 := by omega
  have hcycle : (36524 * g + 1461 * c + 365 * u + v) / 1460 = 25 * g + c ∨
      (36524 * g + 1461 * c + 365 * u + v) / 1460 = 25 * g + c + 1 := by omega
  rw [yearOfEra, hcentury, hera]
  omega

/-- Inside of a period the days in front of a year are those of the centuries, the groups of four
years and the years in front. -/
theorem daysBeforeYear_eq (hg : 0 ≤ g ∧ g ≤ 3) (hc : 0 ≤ c ∧ c ≤ 24) (hu : 0 ≤ u ∧ u ≤ 3) :
    daysBeforeYear (100 * g + 4 * c + u) = 36524 * g + 1461 * c + 365 * u := by
  have hfour : (100 * g + 4 * c + u) / 4 = 25 * g + c := by omega
  have hhundred : (100 * g + 4 * c + u) / 100 = g := by omega
  have hera : (100 * g + 4 * c + u) / 400 = 0 := by omega
  rw [daysBeforeYear, hfour, hhundred, hera]
  omega

/-- The year behind that of the day starts later. -/
theorem lt_daysBeforeYear_succ (h : IsDayOf g c u v) :
    36524 * g + 1461 * c + 365 * u + v < daysBeforeYear (100 * g + 4 * c + u + 1) := by
  obtain ⟨hg, hc, hu, hv⟩ := h
  by_cases hyear : u < 3
  · have hnext := daysBeforeYear_eq (u := u + 1) hg hc (by omega)
    rw [← Int.add_assoc] at hnext
    omega
  obtain rfl : u = 3 := by omega
  by_cases hcycle : c < 24
  · have hnext := daysBeforeYear_eq (c := c + 1) (u := 0) hg (by omega) (by omega)
    have hsum : 100 * g + 4 * c + 3 + 1 = 100 * g + 4 * (c + 1) + 0 := by omega
    rw [hsum]
    omega
  obtain rfl : c = 24 := by omega
  by_cases hcentury : g < 3
  · have hnext := daysBeforeYear_eq (g := g + 1) (c := 0) (u := 0) (by omega) (by omega)
      (by omega)
    have hsum : 100 * g + 4 * 24 + 3 + 1 = 100 * (g + 1) + 4 * 0 + 0 := by omega
    rw [hsum]
    omega
  obtain rfl : g = 3 := by omega
  have hnext : daysBeforeYear (100 * 3 + 4 * 24 + 3 + 1) = 146097 := by decide
  omega

end IsDayOf

/-- **The year of a day** starts with it or earlier, and the next year starts later. -/
theorem yearOfEra_bounds {n : Int} (hpos : 0 ≤ n) (hlt : n < 146097) :
    (0 ≤ yearOfEra n ∧ yearOfEra n < 400) ∧
      daysBeforeYear (yearOfEra n) ≤ n ∧ n < daysBeforeYear (yearOfEra n + 1) := by
  by_cases hlast : n = 146096
  · subst hlast
    decide
  · obtain ⟨g, c, u, v, h, rfl⟩ := exists_isDayOf hpos (by omega)
    have hcentury := h.century
    have hcycle := h.cycle
    have hyear := h.year
    have hday := h.day
    rw [h.yearOfEra_eq, IsDayOf.daysBeforeYear_eq h.century h.cycle h.year]
    exact ⟨by omega, by omega, h.lt_daysBeforeYear_succ⟩

/-! ### The date of a count -/

/-- A period of 400 years has 146097 days. -/
theorem daysBeforeYear_add (year era : Int) :
    daysBeforeYear (year + era * 400) = daysBeforeYear year + era * 146097 := by
  simp only [daysBeforeYear]
  omega

/-- A date is told by its month and by the days of the year, from March on, in front of it. -/
theorem isCalendar_of_dayOfYear {d : Date} {year month dayOfYear : Int} (hpos : 1 ≤ d.month)
    (hle : d.month ≤ 12) (hnumber : d.monthNumber = 12 * year + month)
    (hmonth : 0 ≤ month ∧ month ≤ 11) (hday : (d.day : Int) = dayOfYear - (153 * month + 2) / 5 + 1)
    (hfirst : (153 * month + 2) / 5 ≤ dayOfYear)
    (hlast : daysBeforeYear year + dayOfYear < daysBeforeMonth (12 * year + month + 1)) :
    d.IsCalendar ∧ d.toDays = daysBeforeYear year + dayOfYear - 719468 := by
  have hbefore : daysBeforeMonth d.monthNumber = daysBeforeYear year + (153 * month + 2) / 5 := by
    have hyear : (12 * year + month) / 12 = year ∧ (12 * year + month) % 12 = month := by omega
    rw [hnumber, daysBeforeMonth, hyear.1, hyear.2]
  have hsucc := daysBeforeMonth_succ d.year hpos hle
  rw [← monthNumber, hbefore, hnumber] at hsucc
  refine ⟨⟨hpos, hle, by omega, by omega⟩, ?_⟩
  rw [toDays_eq hpos hle, hbefore, hday]
  omega

/-- The month of a day of a year. -/
theorem month_bounds (year dayOfYear : Int) (hpos : 0 ≤ dayOfYear)
    (hlt : daysBeforeYear year + dayOfYear < daysBeforeYear (year + 1)) :
    let month := (5 * dayOfYear + 2) / 153
    (0 ≤ month ∧ month ≤ 11) ∧ (153 * month + 2) / 5 ≤ dayOfYear ∧
      daysBeforeYear year + dayOfYear < daysBeforeMonth (12 * year + month + 1) := by
  intro month
  have hlength := daysBeforeYear_pred (year + 1)
  rw [Int.add_sub_cancel] at hlength
  have hdays : dayOfYear ≤ 365 := by
    split at hlength <;> omega
  have hmonth : 0 ≤ month ∧ month ≤ 11 := by omega
  refine ⟨hmonth, by omega, ?_⟩
  by_cases hlast : month < 11
  · have hnumber : (12 * year + month + 1) / 12 = year ∧
        (12 * year + month + 1) % 12 = month + 1 := by omega
    rw [daysBeforeMonth, hnumber.1, hnumber.2]
    omega
  · have hnumber : (12 * year + month + 1) / 12 = year + 1 ∧
        (12 * year + month + 1) % 12 = 0 := by omega
    rw [daysBeforeMonth, hnumber.1, hnumber.2]
    omega

/-- The date of a day of a year that starts in March. -/
def ofDayOfYear (year dayOfYear : Int) : Date :=
  let month := (5 * dayOfYear + 2) / 153
  let day := dayOfYear - (153 * month + 2) / 5 + 1
  if month < 10 then ⟨year, (month + 3).toNat, day.toNat⟩
  else ⟨year + 1, (month - 9).toNat, day.toNat⟩

/-- The date of a day of a year is of the calendar, and has the count of that day. -/
theorem ofDayOfYear_spec (year dayOfYear : Int) (hpos : 0 ≤ dayOfYear)
    (hlt : daysBeforeYear year + dayOfYear < daysBeforeYear (year + 1)) :
    (ofDayOfYear year dayOfYear).IsCalendar ∧
      (ofDayOfYear year dayOfYear).toDays = daysBeforeYear year + dayOfYear - 719468 := by
  obtain ⟨hmonth, hfirst, hlast⟩ := month_bounds year dayOfYear hpos hlt
  unfold ofDayOfYear
  dsimp only
  generalize (5 * dayOfYear + 2) / 153 = month at hmonth hfirst hlast ⊢
  split
  · refine isCalendar_of_dayOfYear (d := ⟨year, (month + 3).toNat, _⟩)
      ?_ ?_ ?_ hmonth ?_ hfirst hlast
    all_goals simp only [monthNumber]; omega
  · refine isCalendar_of_dayOfYear (d := ⟨year + 1, (month - 9).toNat, _⟩)
      ?_ ?_ ?_ hmonth ?_ hfirst hlast
    all_goals simp only [monthNumber]; omega

/-- A count is cut into periods of 400 years, and its rest into a year and a day of it. -/
theorem ofDays_eq {n era day : Int} (hn : n + 719468 = era * 146097 + day)
    (hday : 0 ≤ day ∧ day < 146097) :
    ofDays n =
      ofDayOfYear (yearOfEra day + era * 400) (day - daysBeforeYear (yearOfEra day)) := by
  have hera : (n + 719468) / 146097 = era ∧ (n + 719468) % 146097 = day := by omega
  have hyear := (yearOfEra_bounds hday.1 hday.2).1
  have hbefore : daysBeforeYear (yearOfEra day) =
      365 * yearOfEra day + yearOfEra day / 4 - yearOfEra day / 100 := by
    rw [daysBeforeYear]
    omega
  rw [hbefore, ofDays, hera.1, hera.2]
  rfl

/-- **Every count is that of a date.** -/
theorem ofDays_spec (n : Int) : (ofDays n).IsCalendar ∧ (ofDays n).toDays = n := by
  obtain ⟨era, day, hn, hday⟩ : ∃ era day : Int, n + 719468 = era * 146097 + day ∧
      (0 ≤ day ∧ day < 146097) :=
    ⟨(n + 719468) / 146097, (n + 719468) % 146097, by omega, by omega⟩
  obtain ⟨-, hstart, hend⟩ := yearOfEra_bounds hday.1 hday.2
  have hthis := daysBeforeYear_add (yearOfEra day) era
  have hnext := daysBeforeYear_add (yearOfEra day + 1) era
  rw [Int.add_right_comm] at hnext
  obtain ⟨hcalendar, hcount⟩ := ofDayOfYear_spec (yearOfEra day + era * 400)
    (day - daysBeforeYear (yearOfEra day)) (by omega) (by omega)
  rw [ofDays_eq hn hday, hcount]
  exact ⟨hcalendar, by omega⟩

/-- The date of a count has this count. -/
@[simp] theorem toDays_ofDays (n : Int) : (ofDays n).toDays = n := (ofDays_spec n).2

/-- The date of a count is of the calendar. -/
theorem isCalendar_ofDays (n : Int) : (ofDays n).IsCalendar := (ofDays_spec n).1

/-- The date of the count of a date is the date. -/
theorem ofDays_toDays {d : Date} (h : d.IsCalendar) : ofDays d.toDays = d :=
  toDays_inj (isCalendar_ofDays _) h (toDays_ofDays _)

/-! ### The dates covered -/

/-- The count of the first date covered, the first of January of the first year. -/
def firstDay : Int := (⟨firstYear, 1, 1⟩ : Date).toDays

/-- The count of the last date covered, the last of December of the last year. -/
def lastDay : Int := (⟨lastYear, 12, 31⟩ : Date).toDays

/-- The first of January is of the calendar in every year. -/
theorem isCalendar_first (year : Int) : (⟨year, 1, 1⟩ : Date).IsCalendar :=
  ⟨by simp, by simp, by simp, by simp [daysInMonth]⟩

/-- The first dates of years tell the years of dates apart. -/
theorem le_year_iff {d : Date} (h : d.IsCalendar) (year : Int) :
    year ≤ d.year ↔ (⟨year, 1, 1⟩ : Date).toDays ≤ d.toDays := by
  have hpos := h.month_pos
  have hle := h.month_le
  constructor
  · intro hyear
    by_cases hsame : monthNumber ⟨year, 1, 1⟩ = d.monthNumber
    · have hday := h.day_pos
      rw [toDays_eq (by simp) (by simp), toDays_eq hpos hle, hsame]
      simp only
      omega
    · refine le_of_lt (toDays_lt (isCalendar_first year) h (lt_of_le_of_ne ?_ hsame))
      simp only [monthNumber]
      omega
  · intro hcount
    by_contra hyear
    refine absurd (toDays_lt h (isCalendar_first year) ?_) (not_lt.mpr hcount)
    simp only [monthNumber]
    omega

/-- **The dates covered** are those with counts from the first to the last one. -/
theorem isValid_ofDays_iff (n : Int) :
    (ofDays n).isValid = true ↔ firstDay ≤ n ∧ n ≤ lastDay := by
  have hfirst := le_year_iff (isCalendar_ofDays n) firstYear
  have hlast := le_year_iff (isCalendar_ofDays n) (lastYear + 1)
  have hnext : (⟨lastYear + 1, 1, 1⟩ : Date).toDays = lastDay + 1 := by decide
  rw [toDays_ofDays] at hfirst hlast
  rw [isValid_iff, hfirst, firstDay]
  have hcalendar := isCalendar_ofDays n
  constructor
  · rintro ⟨-, hn, hyear⟩
    exact ⟨hn, by omega⟩
  · rintro ⟨hn, hn'⟩
    exact ⟨hcalendar, hn, by omega⟩

end Date

namespace Moment

/-! ### The seconds of a moment -/

/-- The seconds from the start of 1970 to a moment, leap seconds not counted. -/
def seconds (m : Moment) : Int := m.days * 86400 + m.hour * 3600 + m.minute * 60 + m.second

/-- The moment of a second has this second. -/
theorem seconds_ofSeconds (s : Int) : (ofSeconds s).seconds = s := by
  simp only [ofSeconds, seconds]
  omega

end Moment

end AgentPipeline
