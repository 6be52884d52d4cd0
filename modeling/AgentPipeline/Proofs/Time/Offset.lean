import AgentPipeline.Proofs.Number.Numeral
import AgentPipeline.Proofs.Text.Trim
import AgentPipeline.Proofs.Time.Calendar
import AgentPipeline.Time.Deadline
import Mathlib.Algebra.BigOperators.Group.List.Basic

/-!
# Offsets

An offset is written as a sequence of components, each a numeral with the letter of a unit behind
it. What reads offsets finds these sequences and no others (`exists_of_offset?`), and adds up their
seconds within the limit (`offset?_spelled`). The limit is more than the seconds between the first
and the last date covered, so that a deadline fails if and only if it is not covered
(`resolve_offset`).
-/

namespace AgentPipeline.Deadline

variable {c : Char} {cs ds rest : List Char} {sum amount : Option Nat} {n : Nat}

/-! ### Components -/

/-- The units of offsets. -/
inductive TimeUnit where
  | day
  | hour
  deriving DecidableEq

namespace TimeUnit

/-- The letter of a unit. -/
def letter : TimeUnit → Char
  | day => 'd'
  | hour => 'h'

/-- The seconds of a unit. -/
def seconds : TimeUnit → Nat
  | day => 86400
  | hour => 3600

/-- A unit is some seconds long. -/
theorem seconds_pos (u : TimeUnit) : 0 < u.seconds := by
  cases u <;> decide

/-- No letter of a unit is a digit. -/
theorem isDigit_letter (u : TimeUnit) : u.letter.isDigit = false := by
  cases u <;> decide

/-- The letter of a unit gives its seconds. -/
@[simp] theorem unitSeconds?_letter (u : TimeUnit) : unitSeconds? u.letter = some u.seconds := by
  cases u <;> decide

/-- Whatever gives seconds is the letter of a unit. -/
theorem exists_of_unitSeconds? (h : unitSeconds? c = some n) :
    ∃ u : TimeUnit, c = u.letter ∧ n = u.seconds := by
  unfold unitSeconds? at h
  split at h
  · next hday => exact ⟨.day, hday, (Option.some.inj h).symm⟩
  · split at h
    · next hhour => exact ⟨.hour, hhour, (Option.some.inj h).symm⟩
    · cases h

end TimeUnit

/-- A component of an offset, so many of a unit. -/
structure Component extends Numeral where
  unit : TimeUnit

/-- The text of a component. -/
def Component.text (c : Component) : List Char := c.digits ++ [c.unit.letter]

/-- The seconds of a component. -/
def Component.seconds (c : Component) : Nat := c.value * c.unit.seconds

/-- The text of a sequence of components. -/
def spelled (cs : List Component) : List Char := cs.flatMap Component.text

/-- The seconds of a sequence of components. -/
def totalSeconds (cs : List Component) : Nat := (cs.map Component.seconds).sum

/-- The first component of an offset is its digits and its letter. -/
@[simp] theorem spelled_cons (c : Component) (cs : List Component) :
    spelled (c :: cs) = c.digits ++ c.unit.letter :: spelled cs := by
  simp [spelled, Component.text]

/-- The first component adds its seconds. -/
@[simp] theorem totalSeconds_cons (c : Component) (cs : List Component) :
    totalSeconds (c :: cs) = c.seconds + totalSeconds cs := by
  simp [totalSeconds]

/-! ### Reading offsets -/

/-- Reading digits goes on with the number that they continue. -/
theorem sumFrom_digits (h : ∀ c ∈ ds, c.isDigit = true) (n : Nat) (rest : List Char) :
    sumFrom sum (some n) (ds ++ rest) =
      sumFrom sum (some (Nat.ofDigitChars 10 ds n)) rest := by
  rw [← foldl_digits h]
  induction ds generalizing n with
  | nil => rfl
  | cons c ds ih =>
      rw [List.forall_mem_cons] at h
      rw [List.cons_append, sumFrom, if_pos h.1, ih h.2, List.foldl_cons, Option.getD_some]

/-- A numeral is read as its value. -/
theorem sumFrom_numeral (d : Numeral) (rest : List Char) :
    sumFrom sum none (d.digits ++ rest) = sumFrom sum (some d.value) rest := by
  have hdigits := d.isDigit
  obtain ⟨c, ds, hds⟩ := List.exists_cons_of_ne_nil d.ne_nil
  rw [hds, List.forall_mem_cons] at hdigits
  rw [Numeral.value, hds, List.cons_append, sumFrom, if_pos hdigits.1, sumFrom_digits hdigits.2,
    ← foldl_digits (List.forall_mem_cons.mpr hdigits), List.foldl_cons, foldl_digits hdigits.2,
    Option.getD_none]

/-- The limit on the sum takes care of the others. -/
theorem addComponent?_eq (n : Nat) (d : Component) :
    addComponent? n d.value d.unit.seconds =
      if n + d.seconds ≤ offsetLimit then some (n + d.seconds) else none := by
  have hamount : d.value ≤ d.value * d.unit.seconds :=
    Nat.le_mul_of_pos_right d.value d.unit.seconds_pos
  have hlimit : offsetLimit < Nat.pow 2 63 := by decide
  have hiff : (d.value < Nat.pow 2 63 ∧ d.value * d.unit.seconds ≤ offsetLimit ∧
      n + d.value * d.unit.seconds ≤ offsetLimit) ↔ n + d.seconds ≤ offsetLimit := by
    rw [Component.seconds]
    omega
  rw [addComponent?, if_congr hiff rfl rfl, Component.seconds]

/-- **Reading a component** adds its seconds to the sum. -/
theorem sumFrom_component (d : Component) (rest : List Char) :
    sumFrom sum none (d.digits ++ d.unit.letter :: rest) =
      if sum.getD 0 + d.seconds ≤ offsetLimit then
        sumFrom (some (sum.getD 0 + d.seconds)) none rest
      else none := by
  rw [sumFrom_numeral, sumFrom, if_neg (by simp [TimeUnit.isDigit_letter])]
  simp only [Option.bind_eq_bind, Option.bind_some, TimeUnit.unitSeconds?_letter, addComponent?_eq]
  by_cases hsum : sum.getD 0 + d.seconds ≤ offsetLimit
  · rw [if_pos hsum, if_pos hsum, Option.bind_some]
  · rw [if_neg hsum, if_neg hsum, Option.bind_none]

/-- Reading components adds up their seconds, unless they pass the limit. -/
theorem sumFrom_spelled {n : Nat} (h : n ≤ offsetLimit) (cs : List Component) :
    sumFrom (some n) none (spelled cs) =
      if n + totalSeconds cs ≤ offsetLimit then some (n + totalSeconds cs) else none := by
  induction cs generalizing n with
  | nil => simp [spelled, totalSeconds, sumFrom, h]
  | cons c cs ih =>
      rw [spelled_cons, totalSeconds_cons, sumFrom_component, Option.getD_some]
      by_cases hsum : n + c.seconds ≤ offsetLimit
      · rw [if_pos hsum, ih hsum, Nat.add_assoc]
      · rw [if_neg hsum, if_neg (by omega)]

/-- **The offset of a sequence of components** is the sum of their seconds, within the limit. -/
theorem offset?_spelled {cs : List Component} (hne : cs ≠ []) :
    offset? (spelled cs) =
      if totalSeconds cs ≤ offsetLimit then some (totalSeconds cs) else none := by
  obtain ⟨c, cs, rfl⟩ := List.exists_cons_of_ne_nil hne
  rw [offset?, spelled_cons, totalSeconds_cons, sumFrom_component, Option.getD_none, Nat.zero_add]
  by_cases hsum : c.seconds ≤ offsetLimit
  · rw [if_pos hsum, sumFrom_spelled hsum]
  · rw [if_neg hsum, if_neg (by omega)]

/-- The texts that are read as components, and those that are read as the rest of a component whose
first digits are read, with components behind it. -/
theorem exists_of_sumFrom (h : sumFrom sum amount cs = some n) :
    (amount = none → ∃ comps, cs = spelled comps) ∧
      (amount ≠ none → ∃ ds comps, ∃ u : TimeUnit, (∀ c ∈ ds, c.isDigit = true) ∧
        cs = ds ++ u.letter :: spelled comps) := by
  induction cs generalizing sum amount with
  | nil =>
      refine ⟨fun _ => ⟨[], rfl⟩, fun hamount => ?_⟩
      rw [sumFrom, if_neg (by simpa using hamount)] at h
      cases h
  | cons c cs ih =>
      unfold sumFrom at h
      split at h
      · next hdigit =>
        obtain ⟨ds, comps, u, hds, rfl⟩ := (ih h).2 (Option.some_ne_none _)
        have hcons : ∀ d ∈ c :: ds, d.isDigit = true := List.forall_mem_cons.mpr ⟨hdigit, hds⟩
        exact ⟨fun _ => ⟨⟨⟨c :: ds, List.cons_ne_nil _ _, hcons⟩, u⟩ :: comps, by simp⟩,
          fun _ => ⟨c :: ds, comps, u, hcons, rfl⟩⟩
      · simp only [Option.bind_eq_bind, Option.bind_eq_some_iff] at h
        obtain ⟨number, hamount, seconds, hunit, sum', -, hrest⟩ := h
        obtain ⟨u, rfl, -⟩ := TimeUnit.exists_of_unitSeconds? hunit
        obtain ⟨comps, rfl⟩ := (ih hrest).1 rfl
        refine ⟨fun hnone => ?_, fun _ => ⟨[], comps, u, List.forall_mem_nil _, rfl⟩⟩
        rw [hnone] at hamount
        cases hamount

/-- **Every offset is spelled** as a sequence of components. -/
theorem exists_of_offset? (h : offset? cs = some n) :
    ∃ comps : List Component, comps ≠ [] ∧ cs = spelled comps := by
  obtain ⟨comps, rfl⟩ := (exists_of_sumFrom h).1 rfl
  refine ⟨comps, ?_, rfl⟩
  rintro rfl
  cases h

/-! ### Moments after an offset -/

/-- The seconds of the dates covered. -/
def Covered (s : Int) : Prop := Date.firstDay * 86400 ≤ s ∧ s < (Date.lastDay + 1) * 86400

instance (s : Int) : Decidable (Covered s) := inferInstanceAs (Decidable (_ ∧ _))

/-- The text of a second: its date and its time of day. -/
def IsTextOf (text : String) (s : Int) : Prop :=
  ∃ (d : Date) (hour minute second : Nat), d.isValid = true ∧
    (hour < 24 ∧ minute < 60 ∧ second < 60) ∧
    s = d.toDays * 86400 + hour * 3600 + minute * 60 + second ∧
    text = Moment.yearText d.year ++ "-" ++ Moment.padded 2 d.month ++ "-" ++
      Moment.padded 2 d.day ++ " " ++ Moment.padded 2 hour ++ ":" ++ Moment.padded 2 minute ++
      ":" ++ Moment.padded 2 second

/-- The seconds covered are those whose date is valid. -/
theorem covered_iff (s : Int) : Covered s ↔ (Moment.ofSeconds s).date.isValid = true := by
  rw [Moment.date, Date.isValid_ofDays_iff, Covered]
  simp only [Moment.ofSeconds]
  omega

/-- A moment after an offset is given if and only if it is covered. -/
theorem after?_eq (now : Int) (n : Nat) :
    after? now n = if Covered (now + n) then some (Moment.ofSeconds (now + n)) else none := by
  have hiff : (Date.firstYear ≤ (Moment.ofSeconds (now + n)).date.year ∧
      (Moment.ofSeconds (now + n)).date.year ≤ Date.lastYear) ↔ Covered (now + n) := by
    rw [covered_iff, Date.isValid_iff, Moment.date]
    exact (and_iff_right (Date.isCalendar_ofDays _)).symm
  rw [after?, if_congr hiff rfl rfl]

/-- A covered moment has the text of its second. -/
theorem isTextOf_ofSeconds {s : Int} (h : Covered s) : IsTextOf (Moment.ofSeconds s).text s := by
  refine ⟨(Moment.ofSeconds s).date, (Moment.ofSeconds s).hour, (Moment.ofSeconds s).minute,
    (Moment.ofSeconds s).second, (covered_iff s).mp h, ?_, ?_, rfl⟩
  · simp only [Moment.ofSeconds]
    omega
  · rw [Moment.date, Date.toDays_ofDays]
    exact (Moment.seconds_ofSeconds s).symm

/-- The seconds between two seconds covered are within the limit. -/
theorem le_offsetLimit {now : Int} (hnow : Covered now) (hafter : Covered (now + n)) :
    n ≤ offsetLimit := by
  have hfirst : Date.firstDay = -96465292 := by decide
  have hlast : Date.lastDay = 95026236 := by decide
  rw [Covered, hfirst] at hnow
  rw [Covered, hlast] at hafter
  rw [offsetLimit]
  omega

/-! ### Offsets as deadlines -/

/-- A value that gives a moment resolves to the text of the moment. -/
theorem resolve_of_some {value : String} {now : Int} {m : Moment}
    (h : moment now (Text.trim value.toList) = some m) : resolve value now = .ok m.text := by
  rw [resolve, h]

/-- A value that gives no moment is refused, with the value in the error. -/
theorem resolve_of_none {value : String} {now : Int}
    (h : moment now (Text.trim value.toList) = none) :
    resolve value now = .error (.invalidStopTime value) := by
  rw [resolve, h]

/-- There is no other way to fail. -/
theorem resolve_of_not_ok {value : String} {now : Int}
    (h : ¬∃ text, resolve value now = .ok text) :
    resolve value now = .error (.invalidStopTime value) := by
  cases hmoment : moment now (Text.trim value.toList) with
  | some m => exact absurd ⟨_, resolve_of_some hmoment⟩ h
  | none => exact resolve_of_none hmoment

/-- Behind a plus sign an offset is read and added to the present. -/
theorem moment_plus (now : Int) {r : String}
    (hlast : ∀ c ∈ r.toList.getLast?, Text.isBlank c = false) :
    moment now (Text.trim ("+" ++ r).toList) = (offset? r.toList).bind (after? now) := by
  have htext : ("+" ++ r).toList = '+' :: r.toList := by simp
  have htrimmed : Text.Trimmed ('+' :: r.toList) := Text.trimmed_cons (by decide) hlast
  rw [htext, Text.trim_eq_self htrimmed (List.cons_ne_nil _ _), moment]

/-- A spelled offset does not end in white space. -/
theorem getLast?_spelled (comps : List Component) :
    ∀ c ∈ (spelled comps).getLast?, Text.isBlank c = false := by
  rintro c hc
  cases comps using List.reverseRecOn with
  | nil => cases hc
  | append_singleton comps d _ =>
      simp only [spelled, List.flatMap_append, List.flatMap_cons, List.flatMap_nil,
        List.append_nil, Component.text, ← List.append_assoc, List.getLast?_concat,
        Option.mem_some] at hc
      rw [← hc]
      cases d.unit <;> decide

/-- **A sequence of components** means its seconds after now, if they are covered. -/
theorem resolve_spelled_iff {comps : List Component} {r text : String} {now : Int}
    (hr : r.toList = spelled comps) (hnow : Covered now) :
    resolve ("+" ++ r) now = .ok text ↔
      comps ≠ [] ∧ Covered (now + totalSeconds comps) ∧
        (Moment.ofSeconds (now + totalSeconds comps)).text = text := by
  have hmoment := moment_plus now (hr ▸ getLast?_spelled comps)
  rw [hr] at hmoment
  by_cases hne : comps = []
  · rw [hne] at hmoment
    simp [resolve_of_none hmoment, hne]
  rw [offset?_spelled hne] at hmoment
  by_cases hcovered : Covered (now + totalSeconds comps)
  · rw [if_pos (le_offsetLimit hnow hcovered), Option.bind_some, after?_eq, if_pos hcovered]
      at hmoment
    simp [resolve_of_some hmoment, hne, hcovered]
  · have hnone : moment now (Text.trim ("+" ++ r).toList) = none := by
      rw [hmoment]
      split
      · rw [Option.bind_some, after?_eq, if_neg hcovered]
      · rfl
    simp [resolve_of_none hnone, hcovered]

/-- A deadline behind a plus sign that is resolved is a sequence of components. -/
theorem exists_spelled {r text : String} {now : Int}
    (hr : ∀ c ∈ r.toList.getLast?, Text.isBlank c = false)
    (h : resolve ("+" ++ r) now = .ok text) : ∃ comps, r.toList = spelled comps := by
  cases hoffset : offset? r.toList with
  | some n =>
      obtain ⟨comps, -, hcomps⟩ := exists_of_offset? hoffset
      exact ⟨comps, hcomps⟩
  | none =>
      have hnone : moment now (Text.trim ("+" ++ r).toList) = none := by
        rw [moment_plus now hr, hoffset, Option.bind_none]
      rw [resolve_of_none hnone] at h
      cases h

/-- **Offsets are exact.** A deadline `+r` is resolved if and only if `r` is a sequence of
components, at least one, and their seconds after now are covered; every other one is an error. It
is then resolved to that second, in whatever order the components are. -/
theorem resolve_offset (r : String) (now : Int)
    (hr : ∀ c ∈ r.toList.getLast?, Text.isBlank c = false) (hnow : Covered now) :
    ((∃ text, resolve ("+" ++ r) now = .ok text) ↔
      ∃ comps : List Component, comps ≠ [] ∧ r.toList = spelled comps ∧
        Covered (now + totalSeconds comps)) ∧
    ((¬∃ text, resolve ("+" ++ r) now = .ok text) →
      resolve ("+" ++ r) now = .error (.invalidStopTime ("+" ++ r))) ∧
    ∀ (comps : List Component) (text : String), r.toList = spelled comps →
      resolve ("+" ++ r) now = .ok text →
      IsTextOf text (now + totalSeconds comps) ∧
        ∀ (r' : String) (comps' : List Component), comps'.Perm comps →
          r'.toList = spelled comps' → resolve ("+" ++ r') now = .ok text := by
  refine ⟨⟨?_, ?_⟩, resolve_of_not_ok, ?_⟩
  · rintro ⟨text, h⟩
    obtain ⟨comps, hcomps⟩ := exists_spelled hr h
    obtain ⟨hne, hafter, -⟩ := (resolve_spelled_iff hcomps hnow).mp h
    exact ⟨comps, hne, hcomps, hafter⟩
  · rintro ⟨comps, hne, hcomps, hafter⟩
    exact ⟨_, (resolve_spelled_iff hcomps hnow).mpr ⟨hne, hafter, rfl⟩⟩
  · intro comps text hcomps h
    obtain ⟨hne, hafter, rfl⟩ := (resolve_spelled_iff hcomps hnow).mp h
    refine ⟨isTextOf_ofSeconds hafter, fun r' comps' hperm hcomps' => ?_⟩
    -- the order of the components does not matter, as their seconds are added
    have hne' : comps' ≠ [] := by
      rintro rfl
      exact hne hperm.nil_eq.symm
    have hsum : totalSeconds comps' = totalSeconds comps :=
      (hperm.map Component.seconds).sum_eq
    rw [resolve_spelled_iff hcomps' hnow, hsum]
    exact ⟨hne', hafter, rfl⟩

/-- A day and twelve hours after the start of 2026, in both orders. -/
theorem resolve_day_and_hours : ∃ text, resolve ("+" ++ "1d12h") 1767225600 = .ok text ∧
    IsTextOf text 1767355200 ∧ resolve ("+" ++ "12h1d") 1767225600 = .ok text := by
  let day : Component := ⟨⟨['1'], by simp, by simp⟩, .day⟩
  let hours : Component := ⟨⟨['1', '2'], by simp, by simp⟩, .hour⟩
  have hlast : ∀ c ∈ "1d12h".toList.getLast?, Text.isBlank c = false := by
    rintro c hc
    obtain rfl : 'h' = c := Option.some.inj hc
    decide
  obtain ⟨hiff, -, hresult⟩ := resolve_offset "1d12h" 1767225600 hlast (by decide)
  obtain ⟨text, h⟩ := hiff.mpr ⟨[day, hours], by decide, by decide, by decide⟩
  obtain ⟨htext, horder⟩ := hresult [day, hours] text (by decide) h
  have hsum : (1767225600 : Int) + totalSeconds [day, hours] = 1767355200 := by decide
  rw [hsum] at htext
  exact ⟨text, h, htext, horder "12h1d" [hours, day] (.swap _ _ _) (by decide)⟩

end AgentPipeline.Deadline
