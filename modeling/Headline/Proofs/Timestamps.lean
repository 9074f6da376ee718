import Headline.Proofs.OutOfCalendar
import Mathlib.Data.Set.Card

/-!
# Timestamps denote instants

A date and time that is written in full, with an offset from universal time behind it, is read as
the instant that it denotes: `readOctets_stampOctets` reads back the parts and the offset, and
`parse_stamp` the date and time at which universal time is then. So the keys of a search compare as
instants do, whatever the offsets that they were written in (`keys_denote_instants`).
-/

namespace Headline

namespace Text

/-! ## Texts -/

theorem dropWhile_surrounded {before s : Text} (hbefore : ∀ c ∈ before, isBlank c)
    (hs : ∀ c ∈ s, isBlank c = false) (hne : s ≠ []) (after : Text) :
    (before ++ (s ++ after)).dropWhile isBlank = s ++ after := by
  obtain ⟨c, s, rfl⟩ := List.exists_cons_of_ne_nil hne
  rw [List.dropWhile_append_of_pos hbefore]
  refine List.dropWhile_cons_of_neg ?_
  rw [hs c (List.mem_cons_self ..)]
  decide

/-- Blanks around a text are trimmed away. -/
theorem trim_surrounded {before s after : Text} (hbefore : ∀ c ∈ before, isBlank c)
    (hafter : ∀ c ∈ after, isBlank c) (hs : ∀ c ∈ s, isBlank c = false) (hne : s ≠ []) :
    trim (before ++ s ++ after) = s := by
  have hfront := dropWhile_surrounded hbefore hs hne after
  have hback : (after.reverse ++ (s.reverse ++ [])).dropWhile isBlank = s.reverse ++ [] :=
    dropWhile_surrounded (fun c hc => hafter c (List.mem_reverse.1 hc))
      (fun c hc => hs c (List.mem_reverse.1 hc)) (List.reverse_ne_nil_iff.2 hne) []
  rw [List.append_nil, ← List.reverse_append] at hback
  rw [trim, trimBy, List.append_assoc, hfront, dropTrailing, hback, List.reverse_reverse]

theorem toOctets_of_ascii {s : Text} (h : ∀ c ∈ s, c.toNat < 128) :
    s.toOctets = s.map Octets.ofChar := by
  rw [toOctets, ← List.flatMap_singleton' (s.map Octets.ofChar), List.flatMap_map]
  refine List.flatMap_congr fun c hc => ?_
  have hsmall : c.val.toNat ≤ 127 := Nat.le_of_lt_succ (h c hc)
  rw [String.utf8EncodeChar, if_pos hsmall]
  rfl

end Text

namespace Octets

/-! ## Digits -/

/-- Decimal digits as octets. -/
def digits (width n : Nat) : Octets := (Text.digits width n).map ofChar

theorem digit?_digitChar {d : Nat} (h : d < 10) : digit? (ofChar (Nat.digitChar d)) = some d := by
  decide +revert

theorem digits_succ (width n : Nat) :
    digits (width + 1) n = digits width (n / 10) ++ [ofChar (Nat.digitChar (n % 10))] := by
  rw [digits, Text.digits, List.map_append]
  rfl

@[simp] theorem length_digits (width n : Nat) : (digits width n).length = width := by
  rw [digits, List.length_map, Text.length_digits]

/-- The last digits of a number make it up, as far as there is room for them. -/
theorem mapM_digits (width n : Nat) :
    ∃ ds, (digits width n).mapM digit? = some ds ∧ numberOfDigits ds = n % 10 ^ width := by
  induction width generalizing n with
  | zero => exact ⟨[], rfl, (Nat.mod_one n).symm⟩
  | succ width ih =>
    obtain ⟨ds, hds, hvalue⟩ := ih (n / 10)
    have hlast := digit?_digitChar (Nat.mod_lt n (by decide : 10 > 0))
    refine ⟨ds ++ [n % 10], ?_, ?_⟩
    · rw [digits_succ, List.mapM_append, hds]
      simp [hlast]
    -- the last digit is split off
    · have hsplit : n % 10 ^ (width + 1) = 10 * (n / 10 % 10 ^ width) + n % 10 := by
        rw [Nat.pow_succ', Nat.mod_mul]
        omega
      rw [numberOfDigits, List.foldl_append, ← numberOfDigits, hvalue, hsplit]
      rfl

theorem number?_digits {width n : Nat} (h : n < 10 ^ width) (rest : Octets) :
    number? width (digits width n ++ rest) = some n := by
  obtain ⟨ds, hds, hvalue⟩ := mapM_digits width n
  rw [Nat.mod_eq_of_lt h] at hvalue
  rw [number?, if_neg (by simp), List.take_left' (length_digits width n), hds, Option.map_some]
  exact congrArg some hvalue

theorem drop_digits (width n : Nat) (rest : Octets) : (digits width n ++ rest).drop width = rest :=
  List.drop_left' (length_digits width n)

theorem octetAt_digits (width n i : Nat) (rest : Octets) :
    octetAt (digits width n ++ rest) (width + i) = octetAt rest i := by
  rw [octetAt, List.getD_eq_getElem?_getD, List.getElem?_append_right (by simp), length_digits,
    Nat.add_sub_cancel_left, ← List.getD_eq_getElem?_getD, octetAt]

theorem isDigit_of_mem_digits {width n : Nat} {b : UInt8} (h : b ∈ digits width n) : isDigit b := by
  induction width generalizing n with
  | zero => cases h
  | succ width ih =>
    rw [digits_succ, List.mem_append, List.mem_singleton] at h
    rcases h with h | rfl
    · exact ih h
    · rw [isDigit, digit?_digitChar (Nat.mod_lt n (by decide : 10 > 0))]
      rfl

/-- A number of at least one digit starts with a digit. -/
theorem isDigit_octetAt_digits (width n : Nat) (rest : Octets) :
    isDigit (octetAt (digits (width + 1) n ++ rest) 0) := by
  have hne : digits (width + 1) n ≠ [] := List.ne_nil_of_length_eq_add_one (length_digits ..)
  obtain ⟨b, s, hbs⟩ := List.exists_cons_of_ne_nil hne
  have hb : b ∈ digits (width + 1) n := hbs ▸ List.mem_cons_self ..
  rw [hbs]
  exact isDigit_of_mem_digits hb

end Octets

namespace Calendar

/-! ## Instants -/

namespace DateTime

theorem exists_instant_eq {n : Nat} (h : n < daysBeforeYear 10000 * dayLength) :
    ∃ u : DateTime, u.instant = n := by
  obtain ⟨date, hdate, -⟩ := Date.exists_ofDayNumber? (Nat.div_lt_of_lt_mul (Nat.mul_comm _ _ ▸ h))
  have hu : ofInstant? n = some ⟨date, TimeOfDay.ofMicroseconds (n % dayLength)⟩ := by
    show (Date.ofDayNumber? (n / dayLength)).map _ = _
    rw [hdate]
    rfl
  exact ⟨_, Int.ofNat.inj (ofInstant?_eq_some_iff.1 hu)⟩

theorem instant_lt_end (t : DateTime) : t.instant < daysBeforeYear 10000 * dayLength := by
  have hday := t.date.dayNumber_lt_end
  have htime := t.time.microseconds_lt
  rw [instant]
  calc t.date.dayNumber * dayLength + t.time.microseconds
      < (t.date.dayNumber + 1) * dayLength := by rw [Nat.add_one_mul]; omega
    _ ≤ daysBeforeYear 10000 * dayLength := Nat.mul_le_mul_right _ hday

/-- An instant counts the dates and times in front of it, microsecond by microsecond. -/
theorem ncard_earlier (t : DateTime) : {u : DateTime | u.parts < t.parts}.ncard = t.instant := by
  have himage : instant '' {u | u.parts < t.parts} = Finset.range t.instant := by
    ext n
    simp only [Set.mem_image, Set.mem_ofPred_eq, Finset.coe_range, Set.mem_Iio]
    constructor
    · rintro ⟨u, hu, rfl⟩
      exact instant_lt_of_parts_lt hu
    · intro hn
      obtain ⟨u, rfl⟩ := exists_instant_eq (Nat.lt_trans hn t.instant_lt_end)
      exact ⟨u, not_le.1 fun hle => absurd (instant_le_iff.2 hle) (Nat.not_le.2 hn), rfl⟩
  rw [← Set.ncard_image_of_injective _ instant_injective, himage, Set.ncard_coe_finset,
    Finset.card_range]

end DateTime

namespace Timestamp

open Octets

/-! ## Reading a date -/

/-- A date as octets. -/
def dateOctets (d : Date) : Octets :=
  digits 4 d.year ++ ofChar '-' :: (digits 2 d.month ++ ofChar '-' :: digits 2 d.day)

theorem dateOctets_append (d : Date) (rest : Octets) :
    dateOctets d ++ rest = digits 4 d.year ++
      ofChar '-' :: (digits 2 d.month ++ ofChar '-' :: (digits 2 d.day ++ rest)) := by
  simp only [dateOctets, List.append_assoc, List.cons_append]

@[simp] theorem length_dateOctets (d : Date) : (dateOctets d).length = 10 := by
  simp [dateOctets]

/-- No month is a week. -/
theorem octetAt_month_ne (month : Nat) (rest : Octets) :
    octetAt (digits 2 month ++ rest) 0 ≠ ofChar 'W' := by
  intro h
  have hdigit := isDigit_octetAt_digits 1 month rest
  rw [h] at hdigit
  cases hdigit

theorem dateLength_dateOctets (d : Date) (b : UInt8) (rest : Octets) :
    dateLength (dateOctets d ++ b :: rest) = some 10 := by
  have hlength : (dateOctets d ++ b :: rest).length = rest.length + 11 := by
    rw [List.length_append, length_dateOctets, List.length_cons]
    omega
  have hdash : octetAt (dateOctets d ++ b :: rest) 4 = ofChar '-' := by
    rw [dateOctets_append]
    exact octetAt_digits 4 d.year 0 _
  have hmonth : octetAt (dateOctets d ++ b :: rest) 5 ≠ ofChar 'W' := by
    rw [dateOctets_append, octetAt_digits 4 d.year 1]
    exact octetAt_month_ne d.month (ofChar '-' :: (digits 2 d.day ++ b :: rest))
  simp [dateLength, hlength, hdash, hmonth]

theorem readDate_dateOctets (d : Date) (rest : Octets) :
    readDate 10 (dateOctets d ++ rest) = some d := by
  have hyear : d.year < 10 ^ 4 := Nat.lt_succ_of_le d.year_le
  have hmonth : d.month < 10 ^ 2 := Nat.lt_of_le_of_lt d.month_le (by decide)
  have hday : d.day < 10 ^ 2 :=
    Nat.lt_of_le_of_lt (d.day_le.trans (daysInMonth_le d.year d.month)) (by decide)
  have hdash : ∀ rest, octetAt (digits 4 d.year ++ ofChar '-' :: rest) 4 = ofChar '-' :=
    fun rest => octetAt_digits 4 d.year 0 _
  have hskip : ∀ rest, (digits 4 d.year ++ ofChar '-' :: rest).drop 5 = rest := by
    intro rest
    rw [← List.drop_drop (i := 1) (j := 4), drop_digits]
    rfl
  have hhyphen : ∀ rest, hyphen? true (ofChar '-' :: rest) = some rest := fun rest => rfl
  rw [dateOctets_append]
  simp [readDate, number?_digits hyear, hdash, hskip, octetAt_month_ne, number?_digits hmonth,
    hhyphen, number?_digits hday,
    Date.ofParts_eq_ok_iff.2 rfl, Except.toOption]

/-! ## Reading a clock -/

section Fields

variable {value room : Nat}

theorem readFields_colon (hvalue : value < 10 ^ 2) (hroom : 3 < room) {colons : Option Bool}
    (hcolons : colons ≠ some false) (fields : Nat) (rest : Octets) :
    readFields (fields + 1) colons room (digits 2 value ++ ofChar ':' :: rest) =
      (fun r => (value :: r.1, r.2)) <$> readFields fields (some true) (room - 3) rest := by
  have hhead : octetAt (ofChar ':' :: rest) 0 = ofChar ':' := rfl
  have hsettled : colons.getD true = true := by
    rcases colons with _ | _ | _ <;> simp_all
  simp [readFields, number?_digits hvalue, hhead, hsettled, Nat.not_le.2 hroom]

theorem readFields_point (hvalue : value < 10 ^ 2) (hroom : 3 < room) (fields : Nat)
    (colons : Option Bool) (rest : Octets) :
    readFields (fields + 1) colons room (digits 2 value ++ ofChar '.' :: rest) =
      some ([value], .fraction (room - 3) rest) := by
  have hhead : octetAt (ofChar '.' :: rest) 0 = ofChar '.' := rfl
  have hne : ofChar '.' ≠ ofChar ':' := by decide
  simp [readFields, number?_digits hvalue, hhead, hne, Nat.not_le.2 hroom]

theorem readFields_stop (hvalue : value < 10 ^ 2) (hroom : room ≤ 3) (fields : Nat)
    (colons : Option Bool) (rest : Octets) :
    readFields (fields + 1) colons room (digits 2 value ++ rest) =
      some ([value], .stop (octetAt rest 0 != 0)) := by
  simp [readFields, number?_digits hvalue, hroom]

end Fields

/-- A time of day as octets. -/
def clockOctets (t : TimeOfDay) : Octets :=
  digits 2 t.hour ++ ofChar ':' :: (digits 2 t.minute ++ ofChar ':' ::
    (digits 2 t.second ++ ofChar '.' :: digits 6 t.microsecond))

@[simp] theorem length_clockOctets (t : TimeOfDay) : (clockOctets t).length = 15 := by
  simp [clockOctets]

/-- What starts an offset is no digit. -/
theorem isDigit_of_startsOffset {b : UInt8} (h : startsOffset b) : isDigit b = false := by
  simp only [startsOffset, Bool.or_eq_true, beq_iff_eq] at h
  rcases h with (rfl | rfl) | rfl <;> decide

section Zone

variable {zone : Octets} (hzone : ∀ b ∈ zone.head?, startsOffset b)
include hzone

theorem readFraction_digits {microsecond : Nat} (h : microsecond < 10 ^ 6) :
    readFraction 6 (digits 6 microsecond ++ zone) = some (microsecond, octetAt zone 0 != 0) := by
  have hstop : zone.dropWhile isDigit = zone := by
    cases zone with
    | nil => rfl
    | cons b zone =>
      refine List.dropWhile_cons_of_neg ?_
      rw [isDigit_of_startsOffset (hzone b rfl)]
      decide
  simp [readFraction, number?_digits h, hstop]

theorem readClock_clockOctets (t : TimeOfDay) :
    readClock 15 (clockOctets t ++ zone) =
      some (⟨t.hour, t.minute, t.second, t.microsecond⟩, octetAt zone 0 != 0) := by
  have hhour : t.hour < 10 ^ 2 := Nat.lt_trans t.hour_lt (by decide)
  have hminute : t.minute < 10 ^ 2 := Nat.lt_trans t.minute_lt (by decide)
  have hsecond : t.second < 10 ^ 2 := Nat.lt_trans t.second_lt (by decide)
  have hsplit : clockOctets t ++ zone = digits 2 t.hour ++ ofChar ':' :: (digits 2 t.minute ++
      ofChar ':' :: (digits 2 t.second ++ ofChar '.' :: (digits 6 t.microsecond ++ zone))) := by
    simp only [clockOctets, List.append_assoc, List.cons_append]
  rw [hsplit, readClock, readFields_colon hhour (by decide) (by decide),
    readFields_colon hminute (by decide) (by decide), readFields_point hsecond (by decide)]
  simp [readFraction_digits hzone t.microsecond_lt]

/-- The clock ends where the offset starts. -/
theorem readTime_clockOctets (t : TimeOfDay) :
    readTime (clockOctets t ++ zone) =
      (readOffset zone).map fun offset =>
        (⟨t.hour, t.minute, t.second, t.microsecond⟩, offset) := by
  -- no octet of the clock begins an offset
  have hclock : ∀ b ∈ clockOctets t, !startsOffset b := by
    intro b hb
    by_contra hstart
    rw [Bool.not_eq_true, Bool.not_eq_false'] at hstart
    have hdigit := isDigit_of_startsOffset hstart
    simp only [clockOctets, List.mem_append, List.mem_cons] at hb
    rcases hb with hb | rfl | hb | rfl | hb | rfl | hb
    all_goals first
      | exact absurd (isDigit_of_mem_digits hb) (by simp [hdigit])
      | cases hstart
  have hrest : zone.takeWhile (fun b => !startsOffset b) = [] ∧
      zone.dropWhile (fun b => !startsOffset b) = zone := by
    cases zone with
    | nil => exact ⟨rfl, rfl⟩
    | cons b zone =>
      have hb : ¬ (!startsOffset b) = true := by simp [hzone b rfl]
      exact ⟨List.takeWhile_cons_of_neg hb, List.dropWhile_cons_of_neg hb⟩
  -- past the end of the octets stands a zero
  have hended : ¬ (zone.isEmpty ∧ (octetAt zone 0 != 0) = true) := by
    rintro ⟨hempty, hmore⟩
    rw [List.isEmpty_iff.1 hempty] at hmore
    cases hmore
  rw [readTime, List.takeWhile_append_of_pos hclock, List.dropWhile_append_of_pos hclock, hrest.1,
    hrest.2, List.append_nil, length_clockOctets, readClock_clockOctets hzone]
  simp only [Option.bind_eq_bind, Option.bind_some, if_neg hended]
  exact (Option.map_eq_bind ..).symm

end Zone

/-! ## Offsets -/

/-- How far clocks are ahead of universal time, or behind it, in hours and minutes. -/
structure Offset where
  behind : Bool
  hours : Nat
  minutes : Nat
  hours_lt : hours < 24
  minutes_lt : minutes < 60
  deriving Repr

namespace Offset

/-- The offset as it is written. -/
def text (o : Offset) : Text :=
  (if o.behind then '-' else '+') :: Text.digits 2 o.hours ++ ':' :: Text.digits 2 o.minutes

/-- The number of minutes that clocks are ahead. -/
def ahead (o : Offset) : Int :=
  (if o.behind then -1 else 1) * (o.hours * 60 + o.minutes : Nat)

/-- The instant at which clocks with this offset show a date and time. -/
def instant (o : Offset) (t : DateTime) : Int := t.instant - o.ahead * 60000000

/-- Universal time. -/
def zero : Offset := ⟨false, 0, 0, by decide, by decide⟩

/-- Every whole number of minutes within a day is an offset. -/
theorem exists_ahead_eq {n : Int} (h : n.natAbs < 1440) : ∃ o : Offset, o.ahead = n := by
  refine ⟨⟨n < 0, n.natAbs / 60, n.natAbs % 60, by omega, by omega⟩, ?_⟩
  simp only [ahead, decide_eq_true_eq]
  split <;> omega

end Offset

/-- An offset as octets. -/
def offsetOctets (o : Offset) : Octets :=
  ofChar (if o.behind then '-' else '+') :: (digits 2 o.hours ++ ofChar ':' :: digits 2 o.minutes)

theorem offsetOf_clock (o : Offset) :
    offsetOf o.behind ⟨o.hours, o.minutes, 0, 0⟩ = some (o.ahead * 60000000) := by
  have hsize : (if o.hours * 3600 + o.minutes * 60 + 0 = 0 then 0
      else (o.hours * 3600 + o.minutes * 60 + 0) * 1000000 + 0) =
        (o.hours * 60 + o.minutes) * 60000000 := by
    split <;> omega
  -- less than a day, so no offset is refused
  have hlt : (o.hours * 60 + o.minutes) * 60000000 < dayLength := by
    have := o.hours_lt
    have := o.minutes_lt
    rw [dayLength]
    omega
  simp only [offsetOf, hsize, if_pos hlt, Offset.ahead]
  cases o.behind with
  | true => simp; omega
  | false => simp

theorem readOffset_offsetOctets (o : Offset) :
    readOffset (offsetOctets o) = some (o.ahead * 60000000) := by
  have hhours : o.hours < 10 ^ 2 := Nat.lt_trans o.hours_lt (by decide)
  have hminutes : o.minutes < 10 ^ 2 := Nat.lt_trans o.minutes_lt (by decide)
  have hclock : readClock 5 (digits 2 o.hours ++ ofChar ':' :: digits 2 o.minutes) =
      some (⟨o.hours, o.minutes, 0, 0⟩, false) := by
    -- behind the minutes nothing is left
    have hlast := readFields_stop hminutes (Nat.le_succ 2) 1 (some true) []
    rw [List.append_nil] at hlast
    rw [readClock, readFields_colon hhours (by decide) (by decide), hlast]
    rfl
  have hlength : (digits 2 o.hours ++ ofChar ':' :: digits 2 o.minutes).length = 5 := by simp
  have hsign : ofChar (if o.behind then '-' else '+') ≠ ofChar 'Z' := by
    cases o.behind <;> decide
  have hbehind : (ofChar (if o.behind then '-' else '+') == ofChar '-') = o.behind := by
    cases o.behind <;> rfl
  rw [offsetOctets, readOffset, if_neg hsign, hlength, hclock, hbehind]
  exact offsetOf_clock o

/-! ## Reading a timestamp -/

/-- A date and time as octets, with what stands behind it. -/
def stampOctets (t : DateTime) (zone : Octets) : Octets :=
  dateOctets t.date ++ ofChar 'T' :: (clockOctets t.time ++ zone)

theorem readOctets_stampOctets (t : DateTime) {zone : Octets}
    (hzone : ∀ b ∈ zone.head?, startsOffset b) :
    readOctets (stampOctets t zone) = (readOffset zone).map fun offset => (t, offset) := by
  have hrest : (stampOctets t zone).drop 10 = ofChar 'T' :: (clockOctets t.time ++ zone) :=
    List.drop_left' (length_dateOctets _)
  have hlength : dateLength (stampOctets t zone) = some 10 := dateLength_dateOctets ..
  have hdate : readDate 10 (stampOctets t zone) = some t.date := readDate_dateOctets ..
  have hmark : (ofChar 'T' :: (clockOctets t.time ++ zone)).drop (charLength (ofChar 'T')) =
      clockOctets t.time ++ zone := rfl
  simp only [readOctets, hlength, hdate, hrest, Option.bind_eq_bind, Option.bind_some, hmark,
    readTime_clockOctets hzone]
  cases readOffset zone with
  | none => rfl
  | some offset => simp [TimeOfDay.ofParts_eq_ok_iff.2 rfl, Except.toOption]

/-! ## Texts -/

/-- What timestamps are written in, apart from the letter for universal time. -/
def isStampChar (c : Char) : Bool :=
  c.isDigit || c == '-' || c == ':' || c == '.' || c == '+' || c == 'T'

theorem isStampChar_digitChar {d : Nat} (h : d < 10) : isStampChar (Nat.digitChar d) := by
  decide +revert

theorem isStampChar_of_mem_digits {width n : Nat} {c : Char} (h : c ∈ Text.digits width n) :
    isStampChar c := by
  induction width generalizing n with
  | zero => cases h
  | succ width ih =>
    rw [Text.digits, List.mem_append, List.mem_singleton] at h
    rcases h with h | rfl
    · exact ih h
    · exact isStampChar_digitChar (Nat.mod_lt n (by decide))

theorem toNat_of_isStampChar {c : Char} (h : isStampChar c) : 43 ≤ c.toNat ∧ c.toNat ≤ 84 := by
  simp only [isStampChar, Bool.or_eq_true, beq_iff_eq] at h
  rcases h with ((((hdigit | rfl) | rfl) | rfl) | rfl) | rfl
  · have hbounds : 48 ≤ c.toNat ∧ c.toNat ≤ 57 := by
      simpa [Char.isDigit, UInt32.le_iff_toNat_le] using hdigit
    omega
  all_goals decide

theorem isBlank_of_isStampChar {c : Char} (h : isStampChar c) : isBlank c = false := by
  have := toNat_of_isStampChar h
  simp only [isBlank, Bool.or_eq_false_iff, Bool.and_eq_false_iff, decide_eq_false_iff_not,
    beq_eq_false_iff_ne]
  omega

theorem isStampChar_of_mem_text {t : DateTime} {c : Char} (h : c ∈ t.text 'T') : isStampChar c := by
  simp only [DateTime.text, List.mem_append, List.mem_cons] at h
  rcases h with (((((h | rfl | h) | rfl | h) | rfl | h) | rfl | h) | rfl | h) | rfl | h
  all_goals first
    | exact isStampChar_of_mem_digits h
    | rfl

theorem isStampChar_of_mem_offset {o : Offset} {c : Char} (h : c ∈ o.text) : isStampChar c := by
  simp only [Offset.text, List.cons_append, List.mem_cons, List.mem_append] at h
  rcases h with rfl | h | rfl | h
  · cases o.behind <;> rfl
  · exact isStampChar_of_mem_digits h
  · rfl
  · exact isStampChar_of_mem_digits h

theorem toOctets_stamp (t : DateTime) {zone : Text} (h : ∀ c ∈ zone, isStampChar c) :
    (t.text 'T' ++ zone).toOctets = stampOctets t (zone.map ofChar) := by
  have hascii : ∀ c ∈ t.text 'T' ++ zone, c.toNat < 128 := by
    intro c hc
    have hstamp := (List.mem_append.1 hc).elim isStampChar_of_mem_text (h c)
    exact Nat.lt_of_le_of_lt (toNat_of_isStampChar hstamp).2 (by decide)
  rw [Text.toOctets_of_ascii hascii]
  simp [DateTime.text, stampOctets, dateOctets, clockOctets, Octets.digits]

theorem map_ofChar_offset (o : Offset) : o.text.map ofChar = offsetOctets o := by
  simp [Offset.text, offsetOctets, Octets.digits]

/-! ## Stamps -/

/-- A text that writes a date and time in full, `zone` behind it, and blanks around the whole. -/
def IsStamp (t : DateTime) (zone s : Text) : Prop :=
  ∃ before after, s = before ++ (t.text 'T' ++ zone) ++ after ∧ (∀ c ∈ before, isBlank c) ∧
    ∀ c ∈ after, isBlank c

section Stamps

variable {t : DateTime} {o : Offset} {s zone : Text}

theorem IsStamp.trim (h : IsStamp t zone s) (hzone : ∀ c ∈ zone, isBlank c = false) :
    Text.trim s = t.text 'T' ++ zone := by
  obtain ⟨before, after, rfl, hbefore, hafter⟩ := h
  refine Text.trim_surrounded hbefore hafter (fun c hc => ?_) ?_
  · exact (List.mem_append.1 hc).elim
      (fun hc => isBlank_of_isStampChar (isStampChar_of_mem_text hc)) (hzone c)
  · rw [ne_eq, List.append_eq_nil_iff]
    exact fun hnil => by cases hnil.1

/-- All of a stamp but the blanks around it is read, unless it names universal time. -/
theorem IsStamp.expanded (h : IsStamp t zone s) (hzone : ∀ c ∈ zone, isStampChar c) :
    expandZulu (Text.trim s) = t.text 'T' ++ zone := by
  rw [h.trim fun c hc => isBlank_of_isStampChar (hzone c hc)]
  refine if_neg fun hlast => ?_
  have hZ : isStampChar 'Z' := (List.mem_append.1 (List.mem_of_getLast? hlast)).elim
    isStampChar_of_mem_text (hzone 'Z')
  cases hZ

/-- The letter for universal time is read as an offset of zero. -/
theorem IsStamp.expanded_zulu (h : IsStamp t ['Z'] s) :
    expandZulu (Text.trim s) = t.text 'T' ++ Offset.zero.text := by
  rw [h.trim (by simp; decide), expandZulu, if_pos List.getLast?_concat, List.dropLast_concat]
  rfl

theorem written?_of_offset (h : expandZulu (Text.trim s) = t.text 'T' ++ o.text) :
    written? s = some (t, o.ahead * 60000000) := by
  have hstart : ∀ b ∈ (offsetOctets o).head?, startsOffset b := by
    rintro b hb
    obtain rfl := Option.some.inj hb
    cases o.behind <;> rfl
  rw [written?, h, toOctets_stamp t fun c => isStampChar_of_mem_offset, map_ofChar_offset,
    readOctets_stampOctets t hstart, readOffset_offsetOctets]
  rfl

theorem written?_of_local (h : expandZulu (Text.trim s) = t.text 'T' ++ []) :
    written? s = some (t, 0) := by
  rw [written?, h, toOctets_stamp t (by simp), readOctets_stampOctets t (by simp)]
  rfl

/-- A stamp is read as the date and time that universal time shows at its instant. -/
theorem parse_stamp (h : IsStamp t o.text s) {u : DateTime} :
    parse s = .ok u ↔ (u.instant : Int) = o.instant t := by
  have hwritten := written?_of_offset (h.expanded fun c => isStampChar_of_mem_offset)
  rw [parse_of_written?_eq_some hwritten, ← DateTime.ofInstant?_eq_some_iff, Offset.instant]
  cases DateTime.ofInstant? (t.instant - o.ahead * 60000000) <;> simp

theorem parse_of_written?_zero (h : written? s = some (t, 0)) : parse s = .ok t := by
  rw [parse_of_written?_eq_some h, DateTime.ofInstant?_eq_some_iff.2 (Int.sub_zero _).symm]
  rfl

end Stamps

/-- A timestamp with an offset is read as the date and time that universal time shows at its
instant, if the calendar has one; without an offset, or at universal time, it is read as it stands.
So two of them have equal keys if their instants are equal, and keys compare as instants do. Every
whole number of minutes within a day is an offset, and an instant counts the dates and times in
front of it. -/
theorem keys_denote_instants {t t' : DateTime} {o o' : Offset} {s s' : Text}
    (hs : IsStamp t o.text s) (hs' : IsStamp t' o'.text s') :
    (∀ u, parse s = .ok u ↔ (u.instant : Int) = o.instant t) ∧
    (∀ z, IsStamp t [] z ∨ IsStamp t ['Z'] z ∨ IsStamp t Offset.zero.text z → parse z = .ok t) ∧
    (∀ u u', parse s = .ok u → parse s' = .ok u' →
      (u = u' ↔ o.instant t = o'.instant t') ∧
      (u.parts ≤ u'.parts ↔ o.instant t ≤ o'.instant t')) ∧
    (∀ n : Int, n.natAbs < 1440 → ∃ o : Offset, o.ahead = n) ∧
    {u : DateTime | u.parts < t.parts}.ncard = t.instant := by
  refine ⟨fun u => parse_stamp hs, ?_, fun u u' hu hu' => ?_, fun n => Offset.exists_ahead_eq,
    t.ncard_earlier⟩
  · rintro z (hz | hz | hz)
    · exact parse_of_written?_zero (written?_of_local (hz.expanded (by simp)))
    · exact parse_of_written?_zero (written?_of_offset hz.expanded_zulu)
    · refine parse_of_written?_zero (written?_of_offset (o := .zero) ?_)
      exact hz.expanded fun c => isStampChar_of_mem_offset
  · rw [parse_stamp hs] at hu
    rw [parse_stamp hs'] at hu'
    rw [← hu, ← hu', Int.ofNat_inj, Int.ofNat_le, DateTime.instant_le_iff]
    exact ⟨DateTime.instant_injective.eq_iff.symm, Iff.rfl⟩

/-- One instant, in the last half hour of a leap day, at two offsets. -/
theorem keys_of_leap_day :
    let t : DateTime := ⟨⟨2000, 3, 1, by decide, by decide, by decide, by decide, by decide,
      by decide⟩, ⟨0, 30, 0, 7, by decide, by decide, by decide, by decide⟩⟩
    let t' : DateTime := ⟨⟨2000, 2, 29, by decide, by decide, by decide, by decide, by decide,
      by decide⟩, ⟨18, 0, 0, 7, by decide, by decide, by decide, by decide⟩⟩
    let o : Offset := ⟨false, 1, 0, by decide, by decide⟩
    let o' : Offset := ⟨true, 5, 30, by decide, by decide⟩
    let s := "\t2000-03-01T00:30:00.000007+01:00".toList
    let s' := "2000-02-29T18:00:00.000007-05:30 ".toList
    IsStamp t o.text s ∧ IsStamp t' o'.text s' ∧
      ∃ u, u.time.hour = 23 ∧ u.date = t'.date ∧ parse s = .ok u ∧ parse s' = .ok u := by
  intro t t' o o' s s'
  have hs : IsStamp t o.text s := ⟨['\t'], [], by decide, by simp; decide, by simp⟩
  have hs' : IsStamp t' o'.text s' := ⟨[], [' '], by decide, by simp, by simp; decide⟩
  let u : DateTime := ⟨t'.date, ⟨23, 30, 0, 7, by decide, by decide, by decide, by decide⟩⟩
  have hu : parse s = .ok u := ((keys_denote_instants hs hs').1 u).2 (by decide +kernel)
  have hu' : parse s' = .ok u := ((keys_denote_instants hs' hs).1 u).2 (by decide +kernel)
  exact ⟨hs, hs', u, rfl, rfl, hu, hu'⟩

end Timestamp

end Calendar

end Headline
