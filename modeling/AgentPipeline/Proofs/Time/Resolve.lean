import AgentPipeline.Proofs.Time.Stamp

/-!
# Resolved deadlines

Whatever the form of a deadline, the moment that it means has a date that is covered and a time of
day (`isCovered_of_moment`). Its text is a stamp, and a deadline again. From a year up to 9999 it
means the moment that it is the text of (`resolve_text`). A later year has a plus sign in front of
it, which makes the text an offset, and it is none (`resolve_text_of_gt`).
-/

namespace AgentPipeline.Deadline

variable {m : Moment} {d : Date} {c : Char} {cs rest : List Char} {now zone : Int}
  {least most hour minute second n : Nat}

/-! ### The moments of deadlines -/

/-- A moment after an offset is covered. -/
theorem isCovered_of_after? (h : after? now n = some m) : m.IsCovered := by
  rw [after?_eq] at h
  split at h
  · next hcovered =>
    obtain rfl := Option.some.inj h
    refine ⟨(covered_iff _).mp hcovered, ?_, ?_, ?_⟩
    all_goals simp only [Moment.ofSeconds]; omega
  · cases h

/-- A date with a time of day is covered, and stays the date. -/
theorem isCovered_of_moment? (h : moment? d hour minute second = some m) :
    m.IsCovered ∧ m.date = d := by
  unfold moment? at h
  split at h
  · next hparts =>
    obtain rfl := Option.some.inj h
    have hdate : Date.ofDays d.toDays = d := Date.ofDays_toDays (Date.isValid_iff.mp hparts.1).1
    exact ⟨⟨by rw [Moment.date, hdate]; exact hparts.1, hparts.2.1, hparts.2.2.1, hparts.2.2.2⟩,
      hdate⟩
  · cases h

/-- A number has no more digits than are asked for. -/
theorem lt_of_number? (h : number? least most cs = some (n, rest)) : n < 10 ^ most := by
  have hlength : ((cs.take most).takeWhile Char.isDigit).length ≤ most :=
    (List.takeWhile_prefix _).length_le.trans (List.length_take_le _ _)
  have hdigits : ∀ c ∈ (cs.take most).takeWhile Char.isDigit, c.isDigit = true :=
    fun c hc => List.mem_takeWhile_imp hc
  simp only [number?] at h
  split at h
  · cases h
  · obtain ⟨k, hk, heq⟩ := Option.map_eq_some_iff.mp h
    obtain rfl : k = n := congrArg Prod.fst heq
    unfold digitsToNat at hk
    split at hk
    · cases hk
    · rw [foldl_digits hdigits] at hk
      rw [← Option.some.inj hk]
      calc Nat.ofDigitChars 10 ((cs.take most).takeWhile Char.isDigit) 0
          < (0 + 1) * 10 ^ ((cs.take most).takeWhile Char.isDigit).length :=
            ofDigitChars_lt hdigits 0
        _ ≤ 10 ^ most := by
            rw [Nat.zero_add, Nat.one_mul]
            exact Nat.pow_le_pow_right (by decide) hlength

/-- An offset from Coordinated Universal Time is less than a day. -/
theorem zone?_bounds (h : zone? cs = some zone) : -1440 < zone ∧ zone < 1440 := by
  unfold zone? at h
  split at h
  · obtain rfl := Option.some.inj h
    decide
  · obtain rfl := Option.some.inj h
    decide
  · simp only [Option.bind_eq_bind, Option.bind_eq_some_iff] at h
    obtain ⟨sign, hsign, ⟨hours, behind⟩, -, minutesText, -, ⟨minutes, behind'⟩, -, h⟩ := h
    have hunit : sign = 1 ∨ sign = -1 := by
      unfold offsetSign? at hsign
      split at hsign
      · exact .inl (Option.some.inj hsign).symm
      · split at hsign
        · exact .inr (Option.some.inj hsign).symm
        · cases hsign
    split at h
    · next hparts =>
      obtain rfl := Option.some.inj h
      rcases hunit with rfl | rfl <;> omega
    · cases h
  · cases h

/-- The years with four digits are far from the first and the last date covered. -/
theorem isCovered_shiftMinutes (h : m.IsCovered) (hyear : 0 ≤ m.date.year ∧ m.date.year < 10000)
    (hzone : -1440 < zone ∧ zone < 1440) : (m.shiftMinutes zone).IsCovered := by
  have hcalendar := Date.isCalendar_ofDays m.days
  have hfirst := (Date.le_year_iff hcalendar 0).mp hyear.1
  have hlast := (Date.le_year_iff hcalendar 10000).not.mp (not_le.mpr hyear.2)
  rw [Date.toDays_ofDays] at hfirst hlast
  have hbounds : Date.firstDay < (⟨0, 1, 1⟩ : Date).toDays ∧
      (⟨10000, 1, 1⟩ : Date).toDays < Date.lastDay := by decide
  have hhour := h.hour_lt
  have hminute := h.minute_lt
  refine ⟨?_, ?_, ?_, h.second_le⟩
  · rw [Moment.date, Date.isValid_ofDays_iff]
    simp only [Moment.shiftMinutes]
    omega
  all_goals simp only [Moment.shiftMinutes]; omega

/-- A time as the internet writes it is covered. -/
theorem isCovered_of_internetTime? (h : internetTime? cs = some m) : m.IsCovered := by
  -- the steps are taken one by one, as their number makes rewriting all of them slow
  obtain ⟨⟨year, cs⟩, hyear, h⟩ := Option.bind_eq_some_iff.mp h
  obtain ⟨cs, -, h⟩ := Option.bind_eq_some_iff.mp h
  obtain ⟨⟨month, cs⟩, -, h⟩ := Option.bind_eq_some_iff.mp h
  obtain ⟨cs, -, h⟩ := Option.bind_eq_some_iff.mp h
  obtain ⟨⟨day, cs⟩, -, h⟩ := Option.bind_eq_some_iff.mp h
  obtain ⟨cs, -, h⟩ := Option.bind_eq_some_iff.mp h
  obtain ⟨⟨hour, cs⟩, -, h⟩ := Option.bind_eq_some_iff.mp h
  obtain ⟨cs, -, h⟩ := Option.bind_eq_some_iff.mp h
  obtain ⟨⟨minute, cs⟩, -, h⟩ := Option.bind_eq_some_iff.mp h
  obtain ⟨cs, -, h⟩ := Option.bind_eq_some_iff.mp h
  obtain ⟨⟨second, cs⟩, -, h⟩ := Option.bind_eq_some_iff.mp h
  obtain ⟨cs, -, h⟩ := Option.bind_eq_some_iff.mp h
  obtain ⟨zone, hzone, h⟩ := Option.bind_eq_some_iff.mp h
  obtain ⟨m', hm', h⟩ := Option.bind_eq_some_iff.mp h
  obtain rfl := Option.some.inj h
  obtain ⟨hcovered, hdate⟩ := isCovered_of_moment? hm'
  have hbounds := zone?_bounds hzone
  refine isCovered_shiftMinutes hcovered ?_ (by omega)
  rw [hdate]
  exact ⟨Int.natCast_nonneg year, Int.ofNat_lt.mpr (lt_of_number? hyear)⟩

/-- A date and a time are covered. -/
theorem isCovered_of_dateTime? (h : dateTime? cs = some m) : m.IsCovered := by
  simp only [dateTime?, Option.bind_eq_bind, Option.bind_eq_some_iff] at h
  obtain ⟨⟨d, cs₁⟩, -, ⟨hour, cs₂⟩, -, cs₃, -, ⟨minute, cs₄⟩, -, cs₅, -, ⟨second, cs₆⟩, -, h⟩ := h
  split at h
  · exact (isCovered_of_moment? h).1
  · cases h

/-- A date is covered. -/
theorem isCovered_of_date? (h : date? cs = some m) : m.IsCovered := by
  simp only [date?, Option.bind_eq_bind, Option.bind_eq_some_iff] at h
  obtain ⟨⟨d, cs₁⟩, -, h⟩ := h
  split at h
  · exact (isCovered_of_moment? h).1
  · cases h

/-- **The moment of a deadline** has a date that is covered and a time of day. -/
theorem isCovered_of_moment (h : moment now cs = some m) : m.IsCovered := by
  unfold moment at h
  split at h
  · obtain ⟨n, -, hafter⟩ := Option.bind_eq_some_iff.mp h
    exact isCovered_of_after? hafter
  · rcases Option.or_eq_some_iff.mp h with h | ⟨-, h⟩
    · rcases Option.or_eq_some_iff.mp h with h | ⟨-, h⟩
      · exact isCovered_of_internetTime? h
      · exact isCovered_of_dateTime? h
    · exact isCovered_of_date? h

/-! ### Stamps as deadlines -/

/-- A stamp is trimmed if its sign is no white space. -/
theorem trim_stamp {s : Stamp} (h : ∀ c ∈ s.sign, Text.isBlank c = false) :
    Text.trim s.chars = s.chars := by
  have hdigit (n : Numeral) : ∀ c ∈ n.digits, Text.isBlank c = false :=
    fun c hc => Text.isBlank_of_isDigit (n.isDigit c hc)
  have hlast : ∃ front, s.chars = front ++ s.second.digits :=
    ⟨s.sign.toList ++ (s.year.digits ++ '-' :: (s.month.digits ++ '-' :: (s.day.digits ++
      ' ' :: (s.hour.digits ++ ':' :: (s.minute.digits ++ [':']))))), by
        simp [Stamp.chars, Stamp.behindYear]⟩
  obtain ⟨front, hfront⟩ := hlast
  refine Text.trim_eq_self ⟨fun c hc => ?_, fun c hc => ?_⟩ (by simp [hfront, s.second.ne_nil])
  · rw [Stamp.chars, List.head?_append] at hc
    rcases Option.or_eq_some_iff.mp hc with hc | ⟨-, hc⟩
    · exact h c (by simpa using List.mem_of_mem_head? hc)
    · rw [List.head?_append_of_ne_nil _ s.year.ne_nil] at hc
      exact hdigit s.year c (List.mem_of_mem_head? hc)
  · rw [hfront, List.getLast?_append_of_ne_nil _ s.second.ne_nil] at hc
    exact hdigit s.second.toNumeral c (List.mem_of_mem_getLast? hc)

/-- A text without a plus sign in front is a date, with a time or without one. -/
theorem moment_of_head (h : ∀ c ∈ cs.head?, c ≠ '+') :
    moment now cs = ((internetTime? cs).or (dateTime? cs)).or (date? cs) := by
  unfold moment
  split
  · exact absurd rfl (h '+' rfl)
  · rfl

/-- **A stamp means the moment of its parts.** -/
theorem moment_stamp {s : Stamp} (h : s.IsReadable)
    (hm : moment? s.date s.hour.value s.minute.value s.second.value = some m) :
    moment now s.chars = some m := by
  have hhead : ∀ c ∈ s.chars.head?, c ≠ '+' := by
    rintro c hc rfl
    rcases h with ⟨hsign, -⟩ | hsign
    · rw [Stamp.chars, hsign, Option.toList_none, List.nil_append,
        List.head?_append_of_ne_nil _ s.year.ne_nil] at hc
      have hdigit := s.year.isDigit '+' (List.mem_of_mem_head? hc)
      cases hdigit
    · rw [Stamp.chars, hsign] at hc
      cases hc
  rw [moment_of_head hhead, internetTime?_stamp h, dateTime?_stamp h, hm]
  rfl

/-- The sign of a year is no white space. -/
theorem isBlank_yearSign (year : Int) : ∀ c ∈ Moment.yearSign year, Text.isBlank c = false := by
  unfold Moment.yearSign
  split
  · simp
  · split <;> simp [Text.isBlank]

/-- The text of a moment is its stamp. -/
theorem trim_text (h : m.IsCovered) : Text.trim m.text.toList = (m.stamp h).chars := by
  rw [Moment.text_eq h, Stamp.text, String.toList_ofList, trim_stamp (isBlank_yearSign _)]

/-- **A deadline is resolved once:** the text of its moment means the moment. -/
theorem resolve_text (h : m.IsCovered) (hyear : m.date.year ≤ 9999) (now : Int) :
    resolve m.text now = .ok m.text := by
  have hm : moment? m.date m.hour m.minute m.second = some m := by
    rw [moment?, if_pos ⟨h.isValid_date, h.hour_lt, h.minute_lt, h.second_le⟩, Moment.date,
      Date.toDays_ofDays]
  have hparts : moment? (m.stamp h).date (m.stamp h).hour.value (m.stamp h).minute.value
      (m.stamp h).second.value = some m := by
    rw [Moment.date_stamp]
    simpa [Moment.stamp] using hm
  refine resolve_of_some ?_
  rw [trim_text h, moment_stamp (Moment.isReadable_stamp h hyear) hparts]

/-- **A year behind 9999 is not read again.** -/
theorem resolve_text_of_gt (h : m.IsCovered) (hyear : 9999 < m.date.year) (now : Int) :
    resolve m.text now = .error (.invalidStopTime m.text) := by
  have hsign : (m.stamp h).sign = some '+' := by
    rw [Moment.stamp, Moment.yearSign, if_neg (by omega), if_neg (by omega)]
  have hchars : (m.stamp h).chars =
      '+' :: ((m.stamp h).year.digits ++ (m.stamp h).behindYear) := by
    rw [Stamp.chars, hsign]
    rfl
  refine resolve_of_none ?_
  rw [trim_text h, hchars, moment, offset?_stamp, Option.bind_none]

/-- **Resolved deadlines.** The text of a resolved deadline is a stamp. Its year has four digits,
and then it is resolved to itself at whatever time; or it is negative, and it is resolved to itself
as well; or it has five digits at least behind a plus sign, and then it is not resolved. -/
theorem resolve_resolve (value text : String) (now : Int) (h : resolve value now = .ok text) :
    ∃ s : Stamp, text = s.text ∧
      (s.sign = none ∧ s.year.digits.length = 4 ∧ (∀ now', resolve text now' = .ok text) ∨
        s.sign = some '-' ∧ 4 ≤ s.year.digits.length ∧ (∀ now', resolve text now' = .ok text) ∨
        s.sign = some '+' ∧ 5 ≤ s.year.digits.length ∧
          ∀ now', resolve text now' = .error (.invalidStopTime text)) := by
  unfold resolve at h
  split at h
  · next m hm =>
    obtain rfl := Except.ok.inj h
    have hcovered := isCovered_of_moment hm
    refine ⟨m.stamp hcovered, Moment.text_eq hcovered, ?_⟩
    have hfour : 4 ≤ (m.stamp hcovered).year.digits.length := Numeral.le_length_padded 4 _
    by_cases hyear : m.date.year ≤ 9999
    · rcases Moment.isReadable_stamp hcovered hyear with ⟨hsign, hlength⟩ | hsign
      · exact .inl ⟨hsign, hlength, resolve_text hcovered hyear⟩
      · exact .inr (.inl ⟨hsign, hfour, resolve_text hcovered hyear⟩)
    · refine .inr (.inr ⟨?_, ?_, resolve_text_of_gt hcovered (by omega)⟩)
      · rw [Moment.stamp, Moment.yearSign, if_neg (by omega), if_neg (by omega)]
      · have hvalue := (m.stamp hcovered).year.value_lt
        have hlarge : 10 ^ 4 ≤ (m.stamp hcovered).year.value := by
          simp only [Moment.stamp, Numeral.value_padded]
          omega
        exact (Nat.pow_lt_pow_iff_right (by decide)).mp (hlarge.trans_lt hvalue)
  · cases h

/-- A deadline with an offset of two hours. -/
theorem resolve_resolve_hours_ahead :
    resolve "2026-03-01T12:00:00+02:00" 0 = .ok "2026-03-01 10:00:00" ∧
      ∀ now, resolve "2026-03-01 10:00:00" now = .ok "2026-03-01 10:00:00" := by
  refine ⟨rfl, ?_⟩
  obtain ⟨s, -, ⟨-, -, h⟩ | ⟨-, -, h⟩ | ⟨-, -, h⟩⟩ :=
    resolve_resolve "2026-03-01T12:00:00+02:00" "2026-03-01 10:00:00" 0 rfl
  · exact h
  · exact h
  · cases (h 0).symm.trans rfl

/-- Deadlines with offsets that lead out of the years of four digits, at either end. -/
theorem resolve_out_of_four_digits :
    resolve "0000-01-01T00:00:00+01:00" 0 = .ok "-0001-12-31 23:00:00" ∧
      resolve "9999-12-31T23:00:00-02:00" 0 = .ok "+10000-01-01 01:00:00" ∧
      resolve "+10000-01-01 01:00:00" 0 = .error (.invalidStopTime "+10000-01-01 01:00:00") :=
  ⟨rfl, rfl, rfl⟩

end AgentPipeline.Deadline
