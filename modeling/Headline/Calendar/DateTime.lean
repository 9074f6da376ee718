import Headline.Calendar.Date

/-!
# Instants

A date with a time of day, read as universal time, is an instant: a number of microseconds since
the start of year 1. Sorting compares instants.
-/

namespace Headline.Calendar

/-- A date and a time of day. -/
structure DateTime where
  date : Date
  time : TimeOfDay
  deriving DecidableEq, Repr

/-- The number of microseconds in a day. -/
def dayLength : Nat := 86400000000

namespace DateTime

/-- The date and time with the given parts. The parts of the date are checked first. -/
def ofParts (year month day hour minute second microsecond : Nat) :
    Except RangeFault DateTime := do
  let date ← Date.ofParts year month day
  let time ← TimeOfDay.ofParts hour minute second microsecond
  return ⟨date, time⟩

/-- The number of microseconds since the start of year 1. -/
def instant (t : DateTime) : Nat := t.date.dayNumber * dayLength + t.time.microseconds

/-- The date and time of an instant in the years 1 to 9999. -/
def ofInstant? : Int → Option DateTime
  | .ofNat n =>
    (Date.ofDayNumber? (n / dayLength)).map fun date =>
      ⟨date, TimeOfDay.ofMicroseconds (n % dayLength)⟩
  | .negSucc _ => none

/-- The full text with six decimals, `mark` standing between date and time. -/
def text (mark : Char) (t : DateTime) : Text :=
  Text.digits 4 t.date.year ++ '-' :: Text.digits 2 t.date.month
    ++ '-' :: Text.digits 2 t.date.day
    ++ mark :: Text.digits 2 t.time.hour ++ ':' :: Text.digits 2 t.time.minute
    ++ ':' :: Text.digits 2 t.time.second ++ '.' :: Text.digits 6 t.time.microsecond

end DateTime

/-- The date alone. Month and day have two digits, the year has as many as it needs. -/
def Date.label (d : Date) : Text :=
  Text.ofNat d.year ++ '-' :: Text.digits 2 d.month ++ '-' :: Text.digits 2 d.day

end Headline.Calendar
