/-!
# Calendar

Days numbered from the first of January 1970, and their dates in the Gregorian calendar, which is used
for all years, those before its introduction and those before year zero included. Years are counted from
March, so that the day that some years have more is the last; four hundred years then are one era, and
all eras have the same number of days.
-/

namespace FragmentHost

/-- A day of the calendar. -/
structure Date where
  year : Int
  month : Int
  day : Int
  deriving DecidableEq, Repr, Inhabited

namespace Date

/-- The days of four hundred years. -/
def eraDays : Int := 146097

/-- The days from the first of March of year zero to the first of January 1970. -/
def epochShift : Int := 719468

/-- The days in the years before year `y` of an era, for `y` below four hundred. -/
def daysBeforeYear (y : Int) : Int := 365 * y + y / 4 - y / 100

/-- The days in the months before month `m` of a year that starts with March. -/
def daysBeforeMonth (m : Int) : Int := (153 * m + 2) / 5

/-- The number of a date. -/
def toDays (d : Date) : Int :=
  let shifted := if d.month ≤ 2 then d.year - 1 else d.year
  let era := shifted / 400
  let year := shifted % 400
  let month := (d.month + 9) % 12
  era * eraDays + daysBeforeYear year + daysBeforeMonth month + (d.day - 1) - epochShift

/-- The date of a number. -/
def ofDays (n : Int) : Date :=
  let z := n + epochShift
  let era := z / eraDays
  let dayOfEra := z % eraDays
  let year := (dayOfEra - dayOfEra / 1460 + dayOfEra / 36524 - dayOfEra / 146096) / 365
  let dayOfYear := dayOfEra - daysBeforeYear year
  let month := (5 * dayOfYear + 2) / 153
  let day := dayOfYear - daysBeforeMonth month + 1
  let inJanuary := 10 ≤ month
  { year := era * 400 + year + (if inJanuary then 1 else 0)
    month := if inJanuary then month - 9 else month + 3
    day }

/-- The day of the week of a number, with zero for Sunday. -/
def weekday (n : Int) : Int := (n + 4) % 7

/-- The number of the first Sunday on or after a date. -/
def sundayFrom (d : Date) : Int :=
  let n := d.toDays
  n + (7 - weekday n) % 7

example : ofDays 0 = ⟨1970, 1, 1⟩ := by decide
example : ofDays (-719529) = ⟨-1, 12, 31⟩ := by decide
example : toDays ⟨2000, 2, 29⟩ = 11016 := by decide
example : ofDays 11016 = ⟨2000, 2, 29⟩ := by decide
example : ofDays (sundayFrom ⟨2024, 3, 8⟩) = ⟨2024, 3, 10⟩ := by decide

end Date

end FragmentHost
