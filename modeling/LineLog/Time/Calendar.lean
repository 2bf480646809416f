/-!
# LineLog.Time.Calendar

The proleptic Gregorian calendar.

Days are numbered from 1970-01-01, day zero. `Date.toDays` and `Date.ofDays`
convert between day numbers and dates; weekdays, ordinal days and weeks are
computed from the day number.

Design points:

* The conversions count years from March, so that the leap day is the last day of
  a year, and split the days into eras of 400 years, which all have 146097 days.
* Week numbers come in three kinds: weeks that start on Sunday, weeks that start
  on Monday, and ISO weeks, which belong to the year that holds their Thursday.
-/

namespace LineLog.Time

/-- A calendar date. Months and days count from 1. -/
structure Date where
  year : Int
  month : Nat
  day : Nat
  deriving Repr, DecidableEq

namespace Date

/-- Day number of 1970-01-01 counted from 0000-03-01, the start of an era. -/
def epochShift : Int := 719468

/-- Days in an era of 400 years. -/
def eraDays : Int := 146097

/-- The day number of a date. -/
def toDays (d : Date) : Int :=
  let year := if d.month ≤ 2 then d.year - 1 else d.year
  let month := if d.month ≤ 2 then d.month + 9 else d.month - 3
  let yearOfEra := (year % 400).toNat
  let dayOfYear := (153 * month + 2) / 5 + d.day - 1
  let dayOfEra := yearOfEra * 365 + yearOfEra / 4 - yearOfEra / 100 + dayOfYear
  year / 400 * eraDays + dayOfEra - epochShift

/-- The date of a day number. -/
def ofDays (days : Int) : Date :=
  let shifted := days + epochShift
  let dayOfEra := (shifted % eraDays).toNat
  let yearOfEra :=
    (dayOfEra - dayOfEra / 1460 + dayOfEra / 36524 - dayOfEra / 146096) / 365
  let dayOfYear := dayOfEra - (365 * yearOfEra + yearOfEra / 4 - yearOfEra / 100)
  let month := (5 * dayOfYear + 2) / 153
  let day := dayOfYear - (153 * month + 2) / 5 + 1
  let year := shifted / eraDays * 400 + yearOfEra
  if month < 10 then ⟨year, month + 3, day⟩ else ⟨year + 1, month - 9, day⟩

end Date

/-! ### Weekdays and weeks -/

/-- The weekday of a day number: 0 for Sunday up to 6 for Saturday. -/
def weekday (days : Int) : Nat :=
  ((days + 4) % 7).toNat

/-- Days since the last Monday: 0 for Monday up to 6 for Sunday. -/
def sinceMonday (days : Int) : Nat :=
  ((days + 3) % 7).toNat

/-- The number of a day within its year, counted from 1. -/
def ordinal (days : Int) : Nat :=
  (days - Date.toDays ⟨(Date.ofDays days).year, 1, 1⟩ + 1).toNat

/-- The week of the year when weeks start on Sunday; days before the first Sunday are in week 0. -/
def weekFromSunday (days : Int) : Nat :=
  (ordinal days + 6 - weekday days) / 7

/-- The week of the year when weeks start on Monday; days before the first Monday are in week 0. -/
def weekFromMonday (days : Int) : Nat :=
  (ordinal days + 6 - sinceMonday days) / 7

/-- The Thursday of the ISO week of a day. -/
def isoThursday (days : Int) : Int :=
  days - sinceMonday days + 3

/-- The year that an ISO week belongs to. -/
def isoYear (days : Int) : Int :=
  (Date.ofDays (isoThursday days)).year

/-- The number of an ISO week within its year, counted from 1. -/
def isoWeek (days : Int) : Nat :=
  (ordinal (isoThursday days) - 1) / 7 + 1

/-! ### Names -/

/-- English month names, January first. -/
def monthNames : List String :=
  ["January", "February", "March", "April", "May", "June", "July", "August", "September",
   "October", "November", "December"]

/-- English weekday names, Sunday first. -/
def weekdayNames : List String :=
  ["Sunday", "Monday", "Tuesday", "Wednesday", "Thursday", "Friday", "Saturday"]

/-- The full name of a month counted from 1. -/
def monthName (month : Nat) : List Char :=
  ((monthNames[month - 1]?).getD "").toList

/-- The full name of a weekday counted from Sunday. -/
def weekdayName (day : Nat) : List Char :=
  ((weekdayNames[day]?).getD "").toList

/-- The first three letters of a name. -/
def shortName (name : List Char) : List Char :=
  name.take 3

end LineLog.Time
