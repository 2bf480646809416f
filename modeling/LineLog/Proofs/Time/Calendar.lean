import LineLog.Time.Calendar
import Mathlib.Tactic.IntervalCases
/-!
# LineLog.Proofs.Time.Calendar

Dates of day numbers are dates of the Gregorian calendar, and they are the right ones.

`Date.number` counts the days up to a date the plain way: by years, leap years among them, months and
days. `Date.ofDays` goes the other way, through eras of 400 years and years that start in March.
`Date.number_ofDays` says that it arrives, for every day number, and `Date.real_ofDays` that the month
has such a day.

Design points:

* The year of an era is a quotient of the days less those that leap years have added. Day numbers are
  not far off: in `yearOfEra_spec` the quotient is compared with the number of four-year spans, and the
  six values that the difference can have are gone through.
* Both years of a date count the same days: a year from January to December has its leap day inside,
  one from March to February at the end (`number_fromMarch`).
-/

namespace LineLog.Time

/-! ### Years and months -/

/-- The year has a leap day. -/
def IsLeap (year : Int) : Prop :=
  year % 4 = 0 ∧ (year % 100 ≠ 0 ∨ year % 400 = 0)

instance (year : Int) : Decidable (IsLeap year) :=
  inferInstanceAs (Decidable (_ ∧ _))

/-- The leap years up to a year, counted from the year 1. Before that they count down. -/
def leapYears (year : Int) : Int :=
  year / 4 - year / 100 + year / 400

theorem leapYears_eq (year : Int) :
    leapYears year = leapYears (year - 1) + if IsLeap year then 1 else 0 := by
  by_cases h : IsLeap year
  · rw [if_pos h]
    unfold IsLeap at h
    unfold leapYears
    omega
  · rw [if_neg h]
    unfold IsLeap at h
    unfold leapYears
    omega

/-- An era has 97 leap years. -/
theorem leapYears_era (era : Int) {year : Nat} (h : year < 400) :
    leapYears (era * 400 + year) = 97 * era + (year / 4 - year / 100 : Int) := by
  unfold leapYears
  omega

/-- The days of a month. -/
def monthLength (year : Int) : Nat → Nat
  | 2 => if IsLeap year then 29 else 28
  | 4 | 6 | 9 | 11 => 30
  | _ => 31

theorem monthLength_le (year : Int) (month : Nat) : monthLength year month ≤ 31 := by
  unfold monthLength
  split
  · split <;> decide
  all_goals decide

/-- The days of a year before a month. -/
def daysBeforeMonth (year : Int) (month : Nat) : Nat :=
  ((List.range (month - 1)).map fun m => monthLength year (m + 1)).sum

/-- Behind February, months have 153 days in five. -/
theorem daysBeforeMonth_add_three (year : Int) {m : Nat} (h : m < 10) :
    daysBeforeMonth year (m + 3) = 31 + monthLength year 2 + (153 * m + 2) / 5 := by
  interval_cases m <;> simp [daysBeforeMonth, List.range_succ, monthLength] <;> omega

namespace Date

/-- There is such a day in the calendar. -/
structure Real (d : Date) : Prop where
  one_le_month : 1 ≤ d.month
  month_le : d.month ≤ 12
  one_le_day : 1 ≤ d.day
  day_le : d.day ≤ monthLength d.year d.month

theorem real_iff {d : Date} :
    d.Real ↔ (1 ≤ d.month ∧ d.month ≤ 12) ∧ 1 ≤ d.day ∧ d.day ≤ monthLength d.year d.month :=
  ⟨fun h => ⟨⟨h.one_le_month, h.month_le⟩, h.one_le_day, h.day_le⟩,
    fun h => ⟨h.1.1, h.1.2, h.2.1, h.2.2⟩⟩

instance (d : Date) : Decidable d.Real :=
  decidable_of_iff _ real_iff.symm

/-- The days from 1970-01-01 to a date. -/
def number (d : Date) : Int :=
  365 * (d.year - 1970) + (leapYears (d.year - 1) - leapYears 1969) + daysBeforeMonth d.year d.month +
    d.day - 1

/-! ### Years from March -/

/-- The date of a day of a month, where months count from 0 for March. -/
def fromMarch (year : Int) (month day : Nat) : Date :=
  if month < 10 then ⟨year, month + 3, day⟩ else ⟨year + 1, month - 9, day⟩

theorem number_fromMarch (year : Int) {month : Nat} (h : month < 12) (day : Nat) :
    (fromMarch year month day).number =
      365 * year + leapYears year + ((153 * month + 2) / 5 : Nat) + day - 1 - epochShift := by
  have hepoch : leapYears 1969 = 477 := by decide
  rw [fromMarch, epochShift]
  split
  · rename_i hmarch
    simp only [number, daysBeforeMonth_add_three year hmarch, leapYears_eq year, monthLength]
    split <;> omega
  · have hmonth : month = 10 ∨ month = 11 := by omega
    rcases hmonth with rfl | rfl
    · simp [number, daysBeforeMonth]
      omega
    · simp [number, daysBeforeMonth, monthLength]
      omega

/-- A day of a year from March is a real one, if it lies in its month, and the last one only if the year
has a leap day. -/
theorem real_fromMarch {year : Int} {month day : Nat} (hmonth : month < 12) (hday : 1 ≤ day)
    (hlt : (153 * month + 2) / 5 + day ≤ (153 * (month + 1) + 2) / 5)
    (hlast : (153 * month + 2) / 5 + day ≤ 366)
    (hleap : (153 * month + 2) / 5 + day = 366 → IsLeap (year + 1)) :
    (fromMarch year month day).Real := by
  have hfebruary : month = 11 → day ≤ monthLength (year + 1) 2 := by
    rintro rfl
    by_cases h : IsLeap (year + 1)
    · simp only [monthLength, if_pos h]
      omega
    · have hne : (153 * 11 + 2) / 5 + day ≠ 366 := fun heq => h (hleap heq)
      simp only [monthLength, if_neg h]
      omega
  rw [fromMarch]
  split
  · refine ⟨Nat.le_add_left .., ?_, hday, ?_⟩
    · show month + 3 ≤ 12
      omega
    · show day ≤ monthLength year (month + 3)
      interval_cases month <;> simp only [monthLength] <;> omega
  · have hcases : month = 10 ∨ month = 11 := by omega
    rcases hcases with rfl | rfl
    · refine ⟨Nat.le_refl 1, Nat.le_add_left 1 11, hday, ?_⟩
      show day ≤ 31
      omega
    · exact ⟨Nat.le_succ 1, Nat.le_add_left 2 10, hday, hfebruary rfl⟩

/-! ### Eras -/

/-- The year of an era that a day of it lies in. -/
def yearOfEra (dayOfEra : Nat) : Nat :=
  (dayOfEra - dayOfEra / 1460 + dayOfEra / 36524 - dayOfEra / 146096) / 365

/-- The days of an era before a year of it. -/
def daysBeforeYear (year : Nat) : Nat :=
  365 * year + year / 4 - year / 100

/-- The century that the day lies in is the one that the year is of. Here the year is that of the
four-year span `span`, and `e` more. -/
theorem century_eq (day span century e : Int) (hday : 0 ≤ day) (hday' : day < 146096)
    (hspan : 1460 * span ≤ day) (hspan' : day < 1460 * span + 1460)
    (hcentury : 36524 * century ≤ day) (hcentury' : day < 36524 * century + 36524)
    (he : 365 * e ≤ day - 1460 * span + century - span)
    (he' : day - 1460 * span + century - span < 365 * e + 365) :
    100 * century ≤ 4 * span + e ∧ 4 * span + e < 100 * century + 100 := by
  have hcases : century = 0 ∨ century = 1 ∨ century = 2 ∨ century = 3 := by omega
  rcases hcases with rfl | rfl | rfl | rfl <;> constructor <;> omega

/-- A day of an era lies in its year, and is the last of 366 only if the year ends with a leap day. -/
theorem yearOfEra_spec {day : Nat} (h : day < 146097) :
    yearOfEra day < 400 ∧ daysBeforeYear (yearOfEra day) ≤ day ∧
      day - daysBeforeYear (yearOfEra day) ≤ 365 ∧
      (day - daysBeforeYear (yearOfEra day) = 365 →
        (yearOfEra day + 1) % 4 = 0 ∧
          ((yearOfEra day + 1) % 100 ≠ 0 ∨ (yearOfEra day + 1) % 400 = 0)) := by
  by_cases hlast : day = 146096
  · rw [hlast]
    decide
  · -- Years are told from four-year spans of 1460 days, which are too short by the leap days so far.
    obtain ⟨e, he⟩ : ∃ e : Int,
        e = ((day % 1460 : Nat) + (day / 36524 : Nat) - (day / 1460 : Nat)) / 365 := ⟨_, rfl⟩
    have hyear : (yearOfEra day : Int) = 4 * (day / 1460 : Nat) + e := by
      unfold yearOfEra
      omega
    obtain ⟨hlow, hhigh⟩ := century_eq day (day / 1460 : Nat) (day / 36524 : Nat) e (by omega)
      (by omega) (by omega) (by omega) (by omega) (by omega) (by omega) (by omega)
    unfold daysBeforeYear
    generalize yearOfEra day = year at *
    have hcentury : year / 100 = day / 36524 := by omega
    have hcases : e = -1 ∨ e = 0 ∨ e = 1 ∨ e = 2 ∨ e = 3 ∨ e = 4 := by omega
    rcases hcases with h | h | h | h | h | h <;>
      exact ⟨by omega, by omega, by omega, by omega⟩

/-! ### Dates of day numbers -/

/-- The day of an era that a day number falls on. -/
def dayOfEra (days : Int) : Nat :=
  ((days + epochShift) % eraDays).toNat

/-- The day of its year, from March, that a day number falls on. -/
def dayFromMarch (days : Int) : Nat :=
  dayOfEra days - daysBeforeYear (yearOfEra (dayOfEra days))

theorem ofDays_eq (days : Int) :
    ofDays days =
      fromMarch ((days + epochShift) / eraDays * 400 + yearOfEra (dayOfEra days))
        ((5 * dayFromMarch days + 2) / 153)
        (dayFromMarch days - (153 * ((5 * dayFromMarch days + 2) / 153) + 2) / 5 + 1) :=
  rfl

theorem dayOfEra_lt (days : Int) : dayOfEra days < 146097 := by
  unfold dayOfEra eraDays
  omega

/-- The date of a day number is one of the calendar. -/
theorem real_ofDays (days : Int) : (ofDays days).Real := by
  obtain ⟨hyear, hbefore, hlast, hleap⟩ := yearOfEra_spec (dayOfEra_lt days)
  have hday : dayFromMarch days ≤ 365 := hlast
  have hleap' : dayFromMarch days = 365 →
      IsLeap ((days + epochShift) / eraDays * 400 + yearOfEra (dayOfEra days) + 1) := by
    intro heq
    obtain ⟨hfour, hhundred⟩ := hleap heq
    unfold IsLeap
    omega
  rw [ofDays_eq]
  apply real_fromMarch
  · omega
  · omega
  · omega
  · omega
  · intro heq
    exact hleap' (by omega)

/-- **The date of a day number is the right one**: it is that many days from 1970-01-01. -/
theorem number_ofDays (days : Int) : (ofDays days).number = days := by
  obtain ⟨hyear, hbefore, hlast, -⟩ := yearOfEra_spec (dayOfEra_lt days)
  have hday : dayFromMarch days ≤ 365 := hlast
  have hera : (dayOfEra days : Int) = (days + epochShift) % eraDays := by
    unfold dayOfEra eraDays
    omega
  have hsplit : (dayOfEra days : Int) =
      daysBeforeYear (yearOfEra (dayOfEra days)) + dayFromMarch days := by
    unfold dayFromMarch
    omega
  have hbefore' : (daysBeforeYear (yearOfEra (dayOfEra days)) : Int) =
      365 * yearOfEra (dayOfEra days) + (yearOfEra (dayOfEra days) / 4 : Int) -
        (yearOfEra (dayOfEra days) / 100 : Int) := by
    unfold daysBeforeYear
    omega
  rw [ofDays_eq, number_fromMarch _ (by omega), leapYears_era _ hyear]
  unfold eraDays at *
  omega

end Date

/-! ### Days of a year -/

/-- The months of a year up to one of them are no longer than the year. -/
theorem daysBeforeMonth_add_le (year : Int) {month : Nat} (h : 1 ≤ month) (h' : month ≤ 12) :
    daysBeforeMonth year month + monthLength year month ≤ 366 := by
  interval_cases month <;> simp [daysBeforeMonth, List.range_succ, monthLength] <;> split <;> omega

/-- The first day of a year has the number that it should have. -/
theorem Date.toDays_newYear (year : Int) : toDays ⟨year, 1, 1⟩ = number ⟨year, 1, 1⟩ := by
  simp [toDays, number, leapYears, daysBeforeMonth, eraDays, epochShift]
  omega

/-- The number of a day within its year counts the months before its own, and the days of its month. -/
theorem ordinal_eq (days : Int) :
    ordinal days =
      daysBeforeMonth (Date.ofDays days).year (Date.ofDays days).month + (Date.ofDays days).day := by
  have hday := (Date.real_ofDays days).one_le_day
  have hnumber := Date.number_ofDays days
  have hnone : daysBeforeMonth (Date.ofDays days).year 1 = 0 := rfl
  rw [ordinal, Date.toDays_newYear]
  simp only [Date.number] at hnumber ⊢
  omega

theorem ordinal_le (days : Int) : ordinal days ≤ 366 := by
  have hreal := Date.real_ofDays days
  have hle := daysBeforeMonth_add_le (Date.ofDays days).year hreal.one_le_month hreal.month_le
  have hday := hreal.day_le
  rw [ordinal_eq]
  omega

end LineLog.Time
