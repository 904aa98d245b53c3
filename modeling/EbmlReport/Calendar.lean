import EbmlReport.Number.FixedPlaces

/-!
# Dates

A date is stored as a signed count of nanoseconds from the first instant of the
year 2001, UTC.  It is shown as a date and time of the Gregorian calendar, extended
over all years and without leap seconds.

The year 2001 opens a cycle of 400 years, a cycle has 146097 days, and its leap days
stand last in every group of four years, in every century, and in the cycle itself.
So the year is found by division: whole centuries, then groups of four, then years,
where a part that would begin beyond the last one belongs to the last one.
-/

namespace EbmlReport

namespace Calendar

/-- Leap years are the multiples of four, without the centuries that four hundred
does not divide. -/
def isLeap (year : Int) : Bool :=
  year % 4 == 0 && (year % 100 != 0 || year % 400 == 0)

/-- Days of each month, January first. -/
def monthLengths (leap : Bool) : List Nat :=
  [31, if leap then 29 else 28, 31, 30, 31, 30, 31, 31, 30, 31, 30, 31]

/-- Days in a cycle of 400 years. -/
def cycleDays : Nat := 146097

/-- Days in a century that ends without a leap day. -/
def centuryDays : Nat := 36524

/-- Days in four years with one leap day. -/
def quadDays : Nat := 1461

/-- Years since the cycle began, and days since that year began, of a day counted
from the start of its cycle. -/
def yearOfCycle (day : Nat) : Nat × Nat :=
  let century := min 3 (day / centuryDays)
  let inCentury := day - century * centuryDays
  let quad := inCentury / quadDays
  let inQuad := inCentury % quadDays
  let year := min 3 (inQuad / 365)
  (100 * century + 4 * quad + year, inQuad - year * 365)

/-- Months before a day of the year, counted from `months`, and the days left. -/
def monthOfYear : (lengths : List Nat) → (months day : Nat) → Nat × Nat
  | [], months, day => (months, day)
  | length :: rest, months, day =>
      if day < length then (months, day) else monthOfYear rest (months + 1) (day - length)

/-- Year, month and day of the month of a day counted from 2001-01-01. -/
def civil (day : Int) : Int × Nat × Nat :=
  let cycle := day.fdiv cycleDays
  let (years, dayOfYear) := yearOfCycle (day.fmod cycleDays).toNat
  let year := 2001 + 400 * cycle + years
  let (months, dayOfMonth) := monthOfYear (monthLengths (isLeap year)) 0 dayOfYear
  (year, months + 1, dayOfMonth + 1)

/-- Nanoseconds in a second. -/
def nanosPerSecond : Nat := 1000000000

/-- Seconds in a day. -/
def secondsPerDay : Nat := 86400

/-- A number with zeros in front up to `width` digits. -/
def field (width n : Nat) : String :=
  padZeros width (toString n)

/-- The date `YYYY-MM-DDTHH:MM:SS.nnnnnnnnnZ` that lies `nanos` nanoseconds after
the start of 2001.  Years that do not have four digits have no such text. -/
def text (nanos : Int) : String :=
  let seconds := nanos.fdiv nanosPerSecond
  let fraction := (nanos.fmod nanosPerSecond).toNat
  let ofDay := (seconds.fmod secondsPerDay).toNat
  let (year, month, day) := civil (seconds.fdiv secondsPerDay)
  if 0 ≤ year ∧ year ≤ 9999 then
    field 4 year.toNat ++ "-" ++ field 2 month ++ "-" ++ field 2 day ++ "T" ++
      field 2 (ofDay / 3600) ++ ":" ++ field 2 (ofDay / 60 % 60) ++ ":" ++
      field 2 (ofDay % 60) ++ "." ++ field 9 fraction ++ "Z"
  else "<date out of range: " ++ toString nanos ++ "ns>"

end Calendar

end EbmlReport
