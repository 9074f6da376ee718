import Headline.Calendar.DateTime
import Headline.Text.Blank
import Headline.Text.Octets
import Headline.Text.Quoted

/-!
# Timestamps

A timestamp is a calendar or week date, a separator of one character, a time of day and an
optional offset from universal time. It denotes an instant of universal time; without an offset
it is taken as universal already. The text is read as octets, and its end as a zero octet.
-/

namespace Headline.Calendar.Timestamp

open Octets

/-- Why a text is no instant: it is malformed, or its offset leads out of the calendar. -/
inductive Fault where
  | malformed (s : Text)
  | outOfRange
  deriving DecidableEq, Repr

/-- The wording of the fault. -/
def Fault.message : Fault → Text
  | malformed s => "Invalid updated timestamp: ".toList ++ s.quoted
  | outOfRange => "date value out of range".toList

/-! ## The date -/

/-- The length of the date at the front. A week date may leave out its day; whether it does is
told by what follows it. -/
def dateLength (s : Octets) : Option Nat :=
  let n := s.length
  if n < 7 then none
  else if n = 7 then some 7
  else if octetAt s 4 = ofChar '-' then
    if octetAt s 5 = ofChar 'W' then
      if octetAt s 8 = ofChar '-' then
        if n = 9 then none
        else if isDigit (octetAt s 10) then some 8
        else some 10
      else some 8
    else some 10
  else if octetAt s 4 = ofChar 'W' then
    let stop := 7 + ((s.drop 7).takeWhile isDigit).length
    if stop < 9 then some stop
    else if stop % 2 = 0 then some 7
    else some 8
  else some 8

/-- The day number of the Monday of the first week: the week with the year's first Thursday. -/
def firstMonday (year : Nat) : Int :=
  let start := daysBeforeYear year
  let weekday := Date.weekday start
  (start : Int) - weekday + (if 3 < weekday then 7 else 0)

/-- A year has 53 weeks if it starts on a Thursday, or on a Wednesday and is a leap year. -/
def weeksInYear (year : Nat) : Nat :=
  let weekday := Date.weekday (daysBeforeYear year)
  if weekday = 3 ∨ (weekday = 2 ∧ isLeap year) then 53 else 52

/-- The date of a day of a week of a year. -/
def ofWeek (year week day : Nat) : Option Date :=
  if 1 ≤ year ∧ 1 ≤ week ∧ week ≤ weeksInYear year ∧ 1 ≤ day ∧ day ≤ 7 then
    Date.ofDayNumber? (firstMonday year + (week - 1) * 7 + (day - 1)).toNat
  else none

/-- Drops one hyphen at the front if hyphens are in use, in which case it has to be there. -/
def hyphen? (hyphenated : Bool) (s : Octets) : Option Octets :=
  if hyphenated then (if octetAt s 0 = ofChar '-' then some (s.drop 1) else none) else some s

/-- Reads the date of the given length at the front. -/
def readDate (length : Nat) (s : Octets) : Option Date := do
  let year ← number? 4 s
  let hyphenated := octetAt s 4 == ofChar '-'
  let start := if hyphenated then 5 else 4
  let s := s.drop start
  if octetAt s 0 = ofChar 'W' then
    let week ← number? 2 (s.drop 1)
    let day ←
      if start + 3 < length then (hyphen? hyphenated (s.drop 3)).bind (number? 1) else some 1
    ofWeek year week day
  else
    let month ← number? 2 s
    let s ← hyphen? hyphenated (s.drop 2)
    let day ← number? 2 s
    (Date.ofParts year month day).toOption

/-! ## The time -/

/-- Hours, minutes, seconds and microseconds as they were written, in no particular range. -/
structure Clock where
  hour : Nat
  minute : Nat
  second : Nat
  microsecond : Nat
  deriving DecidableEq, Repr

/-- How the whole fields of a clock end: with a fraction of `room` octets, or without one, in
which case it matters whether an octet stands where the next field would go on. -/
inductive ClockEnd where
  | fraction (room : Nat) (rest : Octets)
  | stop (more : Bool)

/-- Reads up to `fields` fields of two digits in the `room` octets at the front. Whether colons
stand between the fields is settled after the first one (`colons`). -/
def readFields : (fields : Nat) → (colons : Option Bool) → (room : Nat) → Octets →
    Option (List Nat × ClockEnd)
  | 0, _, room, s => some ([], .fraction room s)
  | fields + 1, colons, room, s => do
    let value ← number? 2 s
    let s := s.drop 2
    let next := octetAt s 0
    let colons := colons.getD (next == ofChar ':')
    if room ≤ 3 then some ([value], .stop (next != 0))
    else if colons ∧ next = ofChar ':' then
      (fun r => (value :: r.1, r.2)) <$> readFields fields (some colons) (room - 3) (s.drop 1)
    else if next = ofChar '.' ∨ next = ofChar ',' then
      some ([value], .fraction (room - 3) (s.drop 1))
    else if colons then none
    else (fun r => (value :: r.1, r.2)) <$> readFields fields (some colons) (room - 2) s

/-- Reads a fraction of a second: six digits count, further ones are skipped. The result tells
whether an octet follows. -/
def readFraction (room : Nat) (s : Octets) : Option (Nat × Bool) :=
  let width := min 6 room
  (number? width s).map fun n =>
    (n * Nat.pow 10 (6 - width), octetAt ((s.drop width).dropWhile isDigit) 0 != 0)

/-- Reads a clock in the `room` octets at the front. The result tells whether an octet is left
over. -/
def readClock (room : Nat) (s : Octets) : Option (Clock × Bool) := do
  let (fields, stop) ← readFields 3 none room s
  let clock := fun us => Clock.mk (fields.getD 0 0) (fields.getD 1 0) (fields.getD 2 0) us
  match stop with
  | .stop more => return (clock 0, more)
  | .fraction room rest =>
    let (us, more) ← readFraction room rest
    return (clock us, more)

/-- The offset that a clock stands for, in microseconds. A fraction counts only beside whole
seconds, and an offset is shorter than a day. -/
def offsetOf (negative : Bool) (c : Clock) : Option Int :=
  let whole := c.hour * 3600 + c.minute * 60 + c.second
  let size := if whole = 0 then 0 else whole * 1000000 + c.microsecond
  if size < dayLength then some (if negative then -size else size) else none

/-- Whether an octet starts the offset. -/
def startsOffset (b : UInt8) : Bool := b == ofChar '+' || b == ofChar '-' || b == ofChar 'Z'

/-- Reads the offset in microseconds, given the octets from its first one on. -/
def readOffset : Octets → Option Int
  | [] => some 0
  | sign :: s =>
    if sign = ofChar 'Z' then (if octetAt s 0 = 0 then some 0 else none)
    else
      match readClock s.length s with
      | some (clock, false) => offsetOf (sign == ofChar '-') clock
      | _ => none

/-- Reads a time of day and an offset. -/
def readTime (s : Octets) : Option (Clock × Int) := do
  let room := (s.takeWhile fun b => !startsOffset b).length
  let zone := s.dropWhile fun b => !startsOffset b
  let (clock, more) ← readClock room s
  if zone.isEmpty ∧ more then none
  else
    let offset ← readOffset zone
    return (clock, offset)

/-! ## The whole -/

/-- The length in octets of the character that starts with `b`. -/
def charLength (b : UInt8) : Nat :=
  if b < 0x80 then 1 else if b < 0xE0 then 2 else if b < 0xF0 then 3 else 4

/-- Reads a date and time as written, and the offset from universal time in microseconds. -/
def readOctets (s : Octets) : Option (DateTime × Int) := do
  let length ← dateLength s
  let date ← readDate length s
  let rest := s.drop length
  let (clock, offset) ←
    match rest with
    | [] => some (Clock.mk 0 0 0 0, 0)
    | b :: _ => readTime (rest.drop (charLength b))
  let time ← (TimeOfDay.ofParts clock.hour clock.minute clock.second clock.microsecond).toOption
  return (⟨date, time⟩, offset)

/-- A final letter Z stands for universal time. -/
def expandZulu (s : Text) : Text :=
  if s.getLast? = some 'Z' then s.dropLast ++ "+00:00".toList else s

/-- The universal time that a text denotes. -/
def parse (s : Text) : Except Fault DateTime :=
  match readOctets (expandZulu (Text.trim s)).toOctets with
  | none => .error (.malformed s)
  | some (written, offset) =>
    match DateTime.ofInstant? (written.instant - offset) with
    | some t => .ok t
    | none => .error .outOfRange

end Headline.Calendar.Timestamp
