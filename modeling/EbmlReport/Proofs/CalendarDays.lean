import EbmlReport.Calendar

/-!
# Days of the calendar

A day is found from its number by division.  Here the number of a day is counted up from the
start of 2001, year by year and month by month, in both directions.  The count is taken back by
the division, and dates are ordered as their numbers are.

**Results.**
* `Calendar.yearStart_eq`: the days in front of a year, in one formula.
* `Calendar.dayNumber_lt_iff`: an earlier date has a lower number.
* `Calendar.yearOfCycle_spec`, `Calendar.monthOfYear_spec`: the steps of the division.
* `Calendar.civil_spec`: the division gives the date of a day.
-/

namespace EbmlReport

namespace Calendar

section Years

/-- Days of a year. -/
def yearLength (year : Int) : Nat :=
  if isLeap year then 366 else 365

/-- Days of as many years from 2001 on. -/
def daysFrom2001 : (count : Nat) → Nat
  | 0 => 0
  | count + 1 => daysFrom2001 count + yearLength (2001 + count)

/-- Days of as many years down from 2000. -/
def daysTo2001 : (count : Nat) → Nat
  | 0 => 0
  | count + 1 => daysTo2001 count + yearLength (2000 - count)

/-- Days from the start of 2001 to the start of a year. -/
def yearStart (year : Int) : Int :=
  (daysFrom2001 (year - 2001).toNat : Int) - daysTo2001 (2001 - year).toNat

/-- Leap days in the years from 2001 on, as many as `count`; for a negative count, those in the
years down from 2000, with a minus sign. -/
def leapDays (count : Int) : Int :=
  count / 4 - count / 100 + count / 400

/-- Each fourth year has a day more, without the centuries, but with each fourth of these. -/
theorem leapDays_succ (count : Int) :
    leapDays (count + 1) = leapDays count + if isLeap (2001 + count) then 1 else 0 := by
  have h4 : (count + 1) / 4 = count / 4 + if (count + 1) % 4 = 0 then 1 else 0 := by omega
  have h100 : (count + 1) / 100 = count / 100 + if (count + 1) % 100 = 0 then 1 else 0 := by omega
  have h400 : (count + 1) / 400 = count / 400 + if (count + 1) % 400 = 0 then 1 else 0 := by omega
  have hleap : isLeap (2001 + count) = true ↔
      (count + 1) % 4 = 0 ∧ ((count + 1) % 100 ≠ 0 ∨ (count + 1) % 400 = 0) := by
    rw [isLeap, show (2001 + count) % 4 = (count + 1) % 4 by omega,
      show (2001 + count) % 100 = (count + 1) % 100 by omega,
      show (2001 + count) % 400 = (count + 1) % 400 by omega]
    simp
  rw [leapDays, leapDays, h4, h100, h400]
  simp only [hleap]
  split <;> omega

/-- The days of a year are counted by its leap day. -/
theorem yearLength_eq (count : Int) :
    (yearLength (2001 + count) : Int) = 365 + (leapDays (count + 1) - leapDays count) := by
  rw [leapDays_succ, yearLength]
  split <;> omega

theorem daysFrom2001_eq (count : Nat) :
    (daysFrom2001 count : Int) = 365 * count + leapDays count := by
  induction count with
  | zero => rfl
  | succ count ih =>
      rw [daysFrom2001, Int.natCast_add, ih, yearLength_eq, Int.natCast_succ]
      omega

theorem daysTo2001_eq (count : Nat) :
    (daysTo2001 count : Int) = 365 * count - leapDays (-count) := by
  induction count with
  | zero => rfl
  | succ count ih =>
      have hyear := yearLength_eq (-(count + 1 : Nat))
      rw [show (2001 : Int) + -(count + 1 : Nat) = 2000 - count by omega,
        show -((count + 1 : Nat) : Int) + 1 = -count by omega] at hyear
      rw [daysTo2001, Int.natCast_add, ih, hyear]
      omega

/-- The days in front of a year, in one formula. -/
theorem yearStart_eq (year : Int) :
    yearStart year = 365 * (year - 2001) + leapDays (year - 2001) := by
  rw [yearStart, daysFrom2001_eq, daysTo2001_eq]
  have hzero : leapDays 0 = 0 := rfl
  by_cases hyear : 2001 ≤ year
  · rw [show ((year - 2001).toNat : Int) = year - 2001 by omega,
      show ((2001 - year).toNat : Int) = 0 by omega, Int.neg_zero, hzero]
    omega
  · rw [show ((year - 2001).toNat : Int) = 0 by omega,
      show -((2001 - year).toNat : Int) = year - 2001 by omega, hzero]
    omega

/-- Years follow one another. -/
theorem yearStart_add_yearLength_le {early late : Int} (h : early < late) :
    yearStart early + yearLength early ≤ yearStart late := by
  have hlength := yearLength_eq (early - 2001)
  rw [show 2001 + (early - 2001) = early by omega] at hlength
  rw [yearStart_eq, yearStart_eq, hlength, leapDays, leapDays, leapDays]
  omega

end Years

section Months

/-- Days of months of the given lengths. -/
def totalDays : (lengths : List Nat) → Nat
  | [] => 0
  | length :: rest => length + totalDays rest

/-- Days of a year that lie in front of a month. -/
def monthStart (year : Int) (month : Nat) : Nat :=
  totalDays ((monthLengths (isLeap year)).take (month - 1))

/-- Days of a month. -/
def monthLength (year : Int) (month : Nat) : Nat :=
  (monthLengths (isLeap year)).getD (month - 1) 0

theorem totalDays_monthLengths (year : Int) :
    totalDays (monthLengths (isLeap year)) = yearLength year := by
  rw [yearLength]
  cases isLeap year <;> rfl

/-- Months follow one another. -/
theorem monthStart_add_monthLength_le
    {early late : Nat}
    (hpos : 1 ≤ early)
    (h : early < late)
    (hle : late ≤ 12)
    (year : Int) :
    monthStart year early + monthLength year early ≤ monthStart year late := by
  have hall : ∀ leap, ∀ late, late ≤ 12 → ∀ early, early < late → 1 ≤ early →
      totalDays ((monthLengths leap).take (early - 1)) + (monthLengths leap).getD (early - 1) 0 ≤
        totalDays ((monthLengths leap).take (late - 1)) := by
    decide
  exact hall _ late hle early h hpos

/-- A month lies inside its year. -/
theorem monthStart_add_monthLength_le_yearLength
    {month : Nat}
    (hpos : 1 ≤ month)
    (hle : month ≤ 12)
    (year : Int) :
    monthStart year month + monthLength year month ≤ yearLength year := by
  have hall : ∀ leap, ∀ month, month ≤ 12 → 1 ≤ month →
      totalDays ((monthLengths leap).take (month - 1)) + (monthLengths leap).getD (month - 1) 0 ≤
        totalDays (monthLengths leap) := by
    decide
  rw [← totalDays_monthLengths]
  exact hall _ month hle hpos

end Months

section Dates

/-- The calendar has such a date. -/
structure IsDate (year : Int) (month day : Nat) : Prop where
  month_pos : 1 ≤ month
  month_le : month ≤ 12
  day_pos : 1 ≤ day
  day_le : day ≤ monthLength year month

/-- The number of a date, counted from 2001-01-01. -/
def dayNumber (year : Int) (month day : Nat) : Int :=
  yearStart year + monthStart year month + day - 1

/-- An earlier date by year, by month and by day. -/
def Earlier (year : Int) (month day : Nat) (year' : Int) (month' day' : Nat) : Prop :=
  year < year' ∨ year = year' ∧ (month < month' ∨ month = month' ∧ day < day')

variable {year year' : Int} {month month' day day' : Nat}

theorem dayNumber_bounds (h : IsDate year month day) :
    yearStart year ≤ dayNumber year month day ∧
      dayNumber year month day < yearStart year + yearLength year := by
  have hpos := h.day_pos
  have hle := h.day_le
  have hinside := monthStart_add_monthLength_le_yearLength h.month_pos h.month_le year
  rw [dayNumber]
  omega

/-- The dates in front of a year are those with numbers below its start. -/
theorem year_lt_iff
    (h : IsDate year month day)
    (bound : Int) :
    year < bound ↔ dayNumber year month day < yearStart bound := by
  obtain ⟨hstart, hstop⟩ := dayNumber_bounds h
  constructor
  · intro hlt
    have hyears := yearStart_add_yearLength_le hlt
    omega
  · intro hlt
    rcases Int.lt_trichotomy year bound with hyear | rfl | hyear
    · exact hyear
    · omega
    · have hyears := yearStart_add_yearLength_le hyear
      omega

theorem Earlier.dayNumber_lt
    (hearlier : Earlier year month day year' month' day')
    (h : IsDate year month day)
    (h' : IsDate year' month' day') :
    dayNumber year month day < dayNumber year' month' day' := by
  rcases hearlier with hyear | ⟨rfl, hmonth | ⟨rfl, hday⟩⟩
  · have hyears := yearStart_add_yearLength_le hyear
    have hbefore := (dayNumber_bounds h).2
    have hbehind := (dayNumber_bounds h').1
    omega
  · have hmonths := monthStart_add_monthLength_le h.month_pos hmonth h'.month_le year
    have hle := h.day_le
    have hpos := h'.day_pos
    rw [dayNumber, dayNumber]
    omega
  · rw [dayNumber, dayNumber]
    omega

/-- Of two dates one is earlier, unless they are the same. -/
theorem earlier_trichotomy
    (year : Int) (month day : Nat) (year' : Int) (month' day' : Nat) :
    Earlier year month day year' month' day' ∨
      (year = year' ∧ month = month' ∧ day = day') ∨
        Earlier year' month' day' year month day := by
  simp only [Earlier]
  omega

/-- Earlier dates are those with lower numbers. -/
theorem dayNumber_lt_iff
    (h : IsDate year month day)
    (h' : IsDate year' month' day') :
    dayNumber year month day < dayNumber year' month' day' ↔
      Earlier year month day year' month' day' := by
  constructor
  · intro hlt
    rcases earlier_trichotomy year month day year' month' day' with
      hearlier | ⟨rfl, rfl, rfl⟩ | hlater
    · exact hearlier
    · exact absurd hlt (Int.lt_irrefl _)
    · exact absurd (hlater.dayNumber_lt h' h) (Int.not_lt.mpr (Int.le_of_lt hlt))
  · intro hearlier
    exact hearlier.dayNumber_lt h h'

/-- No two dates have one number. -/
theorem eq_of_dayNumber_eq
    (h : IsDate year month day)
    (h' : IsDate year' month' day')
    (heq : dayNumber year month day = dayNumber year' month' day') :
    year = year' ∧ month = month' ∧ day = day' := by
  rcases earlier_trichotomy year month day year' month' day' with hearlier | hsame | hlater
  · exact absurd heq (Int.ne_of_lt (hearlier.dayNumber_lt h h'))
  · exact hsame
  · exact absurd heq.symm (Int.ne_of_lt (hlater.dayNumber_lt h' h))

end Dates

section Division

/-- Of four years the last is longer, but not at the end of a century, unless the cycle ends
there, too. -/
theorem isLeap_of_cycle
    {century quad year : Nat}
    (hcentury : century ≤ 3)
    (hquad : quad ≤ 24)
    (hyear : year ≤ 3) :
    isLeap (2001 + (100 * century + 4 * quad + year : Nat)) = true ↔
      year = 3 ∧ (quad ≠ 24 ∨ century = 3) := by
  simp only [isLeap, Bool.and_eq_true, Bool.or_eq_true, beq_iff_eq, bne_iff_ne]
  omega

/-- A day of a cycle lies in the year that is found for it, and as many days behind its start. -/
theorem yearOfCycle_spec {day : Nat} (h : day < cycleDays) :
    (yearOfCycle day).1 < 400 ∧
      (yearOfCycle day).2 < yearLength (2001 + (yearOfCycle day).1) ∧
      365 * (yearOfCycle day).1 + (yearOfCycle day).1 / 4 - (yearOfCycle day).1 / 100 +
        (yearOfCycle day).2 = day := by
  simp only [yearOfCycle]
  generalize hcentury : min 3 (day / centuryDays) = century
  generalize hinCentury : day - century * centuryDays = inCentury
  generalize hquad : inCentury / quadDays = quad
  generalize hinQuad : inCentury % quadDays = inQuad
  generalize hyear : min 3 (inQuad / 365) = year
  rw [cycleDays] at h
  rw [centuryDays] at hcentury hinCentury
  rw [quadDays] at hquad hinQuad
  have hcenturyLe : century ≤ 3 := by omega
  have hquadLe : quad ≤ 24 := by omega
  have hyearLe : year ≤ 3 := by omega
  have hleap := isLeap_of_cycle hcenturyLe hquadLe hyearLe
  have hquads : (100 * century + 4 * quad + year) / 4 = 25 * century + quad := by omega
  have hcenturies : (100 * century + 4 * quad + year) / 100 = century := by omega
  have hday : century * 36524 + inCentury = day := by omega
  have hinside : 1461 * quad + inQuad = inCentury := by omega
  rw [hquads, hcenturies]
  refine ⟨by omega, ?_, by omega⟩
  rw [yearLength]
  simp only [hleap]
  split <;> omega

/-- A day of the year lies in the month that is found for it, and as many days behind its start. -/
theorem monthOfYear_spec
    {lengths : List Nat}
    {day : Nat}
    (h : day < totalDays lengths)
    (months : Nat) :
    ∃ index, (monthOfYear lengths months day).1 = months + index ∧ index < lengths.length ∧
      (monthOfYear lengths months day).2 < lengths.getD index 0 ∧
      totalDays (lengths.take index) + (monthOfYear lengths months day).2 = day := by
  induction lengths generalizing months day with
  | nil => exact absurd h (Nat.not_lt_zero _)
  | cons length rest ih =>
      rw [monthOfYear]
      split
      · rename_i hday
        exact ⟨0, rfl, Nat.succ_pos _, hday, Nat.zero_add _⟩
      · rename_i hday
        rw [totalDays] at h
        have hrest : day - length < totalDays rest := by omega
        obtain ⟨index, hmonth, hindex, hinside, hsum⟩ := ih hrest (months + 1)
        refine ⟨index + 1, ?_, ?_, ?_, ?_⟩
        · rw [hmonth]
          omega
        · simpa using hindex
        · simpa using hinside
        · rw [List.take_succ_cons, totalDays]
          omega

/-- Leap years come back with each cycle. -/
theorem isLeap_add_cycles (year cycles : Int) : isLeap (year + 400 * cycles) = isLeap year := by
  have h4 : (year + 400 * cycles) % 4 = year % 4 := by omega
  have h100 : (year + 400 * cycles) % 100 = year % 100 := by omega
  have h400 : (year + 400 * cycles) % 400 = year % 400 := by omega
  rw [isLeap, isLeap, h4, h100, h400]

/-- The date of a day is one of the calendar, and has the number of that day. -/
theorem civil_spec (day : Int) :
    IsDate (civil day).1 (civil day).2.1 (civil day).2.2 ∧
      dayNumber (civil day).1 (civil day).2.1 (civil day).2.2 = day := by
  simp only [civil]
  generalize hcycle : day.fdiv cycleDays = cycle
  generalize hinCycle : (day.fmod cycleDays).toNat = inCycle
  have hday : day = cycleDays * cycle + inCycle ∧ inCycle < cycleDays := by
    rw [cycleDays, Int.fdiv_eq_ediv_of_nonneg _ (by decide)] at hcycle
    rw [cycleDays, Int.fmod_eq_emod_of_nonneg _ (by decide)] at hinCycle
    rw [cycleDays]
    omega
  obtain ⟨hyears, hinYear, hsum⟩ := yearOfCycle_spec hday.2
  generalize (yearOfCycle inCycle).1 = years at hyears hinYear hsum ⊢
  generalize (yearOfCycle inCycle).2 = dayOfYear at hinYear hsum ⊢
  have hleap : isLeap (2001 + 400 * cycle + years) = isLeap (2001 + years) := by
    rw [Int.add_right_comm, isLeap_add_cycles]
  have hstart : yearStart (2001 + 400 * cycle + years) + dayOfYear = day := by
    have hcount : 2001 + 400 * cycle + years - 2001 = 400 * cycle + years := by omega
    rw [cycleDays] at hday
    rw [yearStart_eq, hcount, leapDays,
      show (400 * cycle + years) / 4 = 100 * cycle + years / 4 by omega,
      show (400 * cycle + years) / 100 = 4 * cycle + years / 100 by omega,
      show (400 * cycle + years) / 400 = cycle by omega]
    omega
  rw [yearLength, ← hleap, ← yearLength, ← totalDays_monthLengths] at hinYear
  obtain ⟨index, hmonth, hindex, hinMonth, hdays⟩ := monthOfYear_spec hinYear 0
  have hmonths : index < 12 := hindex
  rw [hmonth, Nat.zero_add]
  refine ⟨⟨by omega, by omega, by omega, hinMonth⟩, ?_⟩
  rw [dayNumber, monthStart, Nat.add_sub_cancel]
  omega

end Division

end Calendar

end EbmlReport
