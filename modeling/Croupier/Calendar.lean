import Croupier.Numeral

/-!
# Croupier.Calendar

Dates of the Gregorian calendar, counted in days from 1970-01-01. Years are counted from March,
so that the leap day comes last, and in eras of 400 years, after which the calendar repeats.
-/

namespace Croupier

structure Date where
  year : Int
  month : Int
  day : Int
  deriving DecidableEq, Repr

namespace Date

def secondsPerDay : Int := 86400

/-- Days from 0000-03-01 to 1970-01-01. -/
def epochOffset : Int := 719468

def daysPerEra : Int := 146097

/-- The date a number of days after 1970-01-01. -/
def ofDays (days : Int) : Date :=
  let z := days + epochOffset
  let era := z / daysPerEra
  let dayOfEra := z % daysPerEra
  let yearOfEra :=
    (dayOfEra - dayOfEra / 1460 + dayOfEra / 36524 - dayOfEra / 146096) / 365
  let dayOfYear := dayOfEra - (365 * yearOfEra + yearOfEra / 4 - yearOfEra / 100)
  let monthFromMarch := (5 * dayOfYear + 2) / 153
  let day := dayOfYear - (153 * monthFromMarch + 2) / 5 + 1
  let month := if monthFromMarch < 10 then monthFromMarch + 3 else monthFromMarch - 9
  let year := yearOfEra + era * 400 + if month ≤ 2 then 1 else 0
  ⟨year, month, day⟩

/-- Why a time has no date that can be written. -/
inductive Undatable where
  | beyondClock
  | beyondCalendar
  | yearTooLarge
  deriving DecidableEq, Repr

def Undatable.message : Undatable → String
  | .beyondClock => "timestamp out of range for platform time_t"
  | .beyondCalendar => ""
  | .yearTooLarge => "signed integer is greater than maximum"

/-- The date in UTC at a time in seconds since 1970. Seconds are counted in 64 bits, years in 32
bits, from 1900 on where there is a calendar and from zero on where they are written. -/
def ofSeconds? (seconds : Int) : Except Undatable Date :=
  if seconds < -9223372036854775808 ∨ 9223372036854775807 < seconds then .error .beyondClock
  else
    let d := ofDays (seconds / secondsPerDay)
    if d.year - 1900 < -2147483648 ∨ 2147483647 < d.year - 1900 then .error .beyondCalendar
    else if 2147483647 < d.year then .error .yearTooLarge
    else .ok d

/-- `YYYY-MM-DD`; a year takes as many digits as it has. -/
def text (d : Date) : String :=
  Numeral.ofInt d.year ++ "-" ++ Numeral.twoPlaces d.month ++ "-" ++ Numeral.twoPlaces d.day

end Date
end Croupier
