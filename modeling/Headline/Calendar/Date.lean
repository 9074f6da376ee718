import Headline.Text.Basic

/-!
# Dates and times of day

Dates are those of the Gregorian calendar, extended backwards, in the years 1 to 9999.
`Date.ofParts` and `TimeOfDay.ofParts` admit exactly the parts that the bounds in the types allow.
-/

namespace Headline.Calendar

/-- Why numbers make no date or no time of day. -/
inductive RangeFault where
  | year (year : Nat)
  | month
  | day
  | hour
  | minute
  | second
  | microsecond
  deriving DecidableEq, Repr

/-- The wording of the fault. -/
def RangeFault.message : RangeFault → Text
  | year y => "year ".toList ++ Text.ofNat y ++ " is out of range".toList
  | month => "month must be in 1..12".toList
  | day => "day is out of range for month".toList
  | hour => "hour must be in 0..23".toList
  | minute => "minute must be in 0..59".toList
  | second => "second must be in 0..59".toList
  | microsecond => "microsecond must be in 0..999999".toList

/-! ## Years and months -/

/-- Every fourth year is a leap year, but of the full centuries only every fourth. -/
def isLeap (year : Nat) : Bool := year % 4 == 0 && (year % 100 != 0 || year % 400 == 0)

/-- The number of days of a month. -/
def daysInMonth (year month : Nat) : Nat :=
  if month = 2 then (if isLeap year then 29 else 28)
  else if month = 4 ∨ month = 6 ∨ month = 9 ∨ month = 11 then 30
  else 31

/-- The number of days from the first of January of year 1 to that of `year`. -/
def daysBeforeYear (year : Nat) : Nat :=
  let past := year - 1
  365 * past + past / 4 - past / 100 + past / 400

/-- The number of days of a year before a month. -/
def daysBeforeMonth (year : Nat) : (month : Nat) → Nat
  | 0 => 0
  | 1 => 0
  | month + 2 => daysBeforeMonth year (month + 1) + daysInMonth year (month + 1)

/-! ## Dates -/

/-- A date in the years 1 to 9999. -/
structure Date where
  year : Nat
  month : Nat
  day : Nat
  year_pos : 1 ≤ year
  year_le : year ≤ 9999
  month_pos : 1 ≤ month
  month_le : month ≤ 12
  day_pos : 1 ≤ day
  day_le : day ≤ daysInMonth year month
  deriving DecidableEq, Repr

namespace Date

/-- The date with the given parts. The year is checked first, then the month, then the day. -/
def ofParts (year month day : Nat) : Except RangeFault Date :=
  if hy : 1 ≤ year ∧ year ≤ 9999 then
    if hm : 1 ≤ month ∧ month ≤ 12 then
      if hd : 1 ≤ day ∧ day ≤ daysInMonth year month then
        .ok ⟨year, month, day, hy.1, hy.2, hm.1, hm.2, hd.1, hd.2⟩
      else .error .day
    else .error .month
  else .error (.year year)

/-- The number of days since the first of January of year 1. -/
def dayNumber (d : Date) : Nat :=
  daysBeforeYear d.year + daysBeforeMonth d.year d.month + (d.day - 1)

/-- The year in which a day lies. A year has 146097 / 400 days on average, and the estimate that
this gives is the year itself or the one before. -/
def yearOfDay (n : Nat) : Nat :=
  let estimate := n * 400 / 146097 + 1
  if daysBeforeYear (estimate + 1) ≤ n then estimate + 1 else estimate

/-- The month and the day of the month, `n` days after the first day of the given months. -/
def monthOfDay (year : Nat) : List Nat → Nat → Nat × Nat
  | [], n => (13, n)
  | m :: ms, n =>
    if n < daysInMonth year m then (m, n + 1) else monthOfDay year ms (n - daysInMonth year m)

/-- The date of a day number, if its year is at most 9999. -/
def ofDayNumber? (n : Nat) : Option Date :=
  let year := yearOfDay n
  let (month, day) :=
    monthOfDay year [1, 2, 3, 4, 5, 6, 7, 8, 9, 10, 11, 12] (n - daysBeforeYear year)
  (ofParts year month day).toOption

/-- The day of the week, counted from Monday as zero. The first day of year 1 was a Monday. -/
def weekday (dayNumber : Nat) : Nat := dayNumber % 7

end Date

/-! ## Times of day -/

/-- A time of day with microseconds. -/
structure TimeOfDay where
  hour : Nat
  minute : Nat
  second : Nat
  microsecond : Nat
  hour_lt : hour < 24
  minute_lt : minute < 60
  second_lt : second < 60
  microsecond_lt : microsecond < 1000000
  deriving DecidableEq, Repr

namespace TimeOfDay

/-- The time with the given parts, which are checked in order. -/
def ofParts (hour minute second microsecond : Nat) : Except RangeFault TimeOfDay :=
  if hh : hour < 24 then
    if hm : minute < 60 then
      if hs : second < 60 then
        if hu : microsecond < 1000000 then
          .ok ⟨hour, minute, second, microsecond, hh, hm, hs, hu⟩
        else .error .microsecond
      else .error .second
    else .error .minute
  else .error .hour

/-- The number of microseconds since midnight. -/
def microseconds (t : TimeOfDay) : Nat :=
  ((t.hour * 60 + t.minute) * 60 + t.second) * 1000000 + t.microsecond

/-- The time so many microseconds after the last midnight. -/
def ofMicroseconds (n : Nat) : TimeOfDay where
  hour := n / 3600000000 % 24
  minute := n / 60000000 % 60
  second := n / 1000000 % 60
  microsecond := n % 1000000
  hour_lt := Nat.mod_lt _ (by decide)
  minute_lt := Nat.mod_lt _ (by decide)
  second_lt := Nat.mod_lt _ (by decide)
  microsecond_lt := Nat.mod_lt _ (by decide)

end TimeOfDay

end Headline.Calendar
