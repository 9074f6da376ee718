import Headline.Calendar.DateTime
import Mathlib.Data.List.Lex
import Mathlib.Order.Monotone.Basic

/-!
# Dates and instants

Dates count days, and dates with times count microseconds, from the start of year 1.

* `instant_le_iff`: instants compare as the parts of their dates and times do, from the year down.
* `ofDayNumber?_eq_some_iff`, `ofInstant?_eq_some_iff`: a count is read back as the date, or the
  date and time, that it is the count of, and as none when there is none in the calendar.
-/

namespace Headline.Calendar

/-- A count that grows with the parts, compared one by one, tells apart what has different
parts. -/
theorem injective_of_parts_lt {α : Type} {parts : α → List Nat} {count : α → Nat}
    (hparts : Function.Injective parts) (h : ∀ {a b}, parts a < parts b → count a < count b) :
    Function.Injective count := by
  intro a b hab
  apply hparts
  rcases Std.lt_trichotomy (parts a) (parts b) with hlt | heq | hgt
  · exact absurd hab (Nat.ne_of_lt (h hlt))
  · exact heq
  · exact absurd hab.symm (Nat.ne_of_lt (h hgt))

/-- Such a count compares as the parts do. -/
theorem le_iff_of_parts_lt {α : Type} {parts : α → List Nat} {count : α → Nat}
    (hparts : Function.Injective parts) (h : ∀ {a b}, parts a < parts b → count a < count b)
    {a b : α} : count a ≤ count b ↔ parts a ≤ parts b := by
  constructor
  · intro hle
    refine not_lt.1 fun hlt => ?_
    exact absurd hle (Nat.not_le.2 (h hlt))
  · intro hle
    rcases le_iff_lt_or_eq.1 hle with hlt | heq
    · exact Nat.le_of_lt (h hlt)
    · rw [hparts heq]

/-! ## Years -/

/-- The number of days of a year. -/
def daysInYear (year : Nat) : Nat := if isLeap year then 366 else 365

theorem isLeap_iff {year : Nat} :
    isLeap year ↔ 4 ∣ year ∧ (¬ 100 ∣ year ∨ 400 ∣ year) := by
  simp [isLeap, Nat.dvd_iff_mod_eq_zero]

theorem daysBeforeYear_succ {year : Nat} (h : 1 ≤ year) :
    daysBeforeYear (year + 1) = daysBeforeYear year + daysInYear year := by
  obtain ⟨past, rfl⟩ := Nat.exists_eq_add_of_le' h
  have h4 : past / 100 ≤ past / 4 := Nat.div_le_div_left (by decide) (by decide)
  have h100 : 100 ∣ past + 1 → 4 ∣ past + 1 := Nat.dvd_trans (by decide)
  have h400 : 400 ∣ past + 1 → 100 ∣ past + 1 := Nat.dvd_trans (by decide)
  simp only [daysBeforeYear, daysInYear, isLeap_iff, Nat.add_sub_cancel, Nat.succ_div]
  by_cases d4 : 4 ∣ past + 1 <;> by_cases d100 : 100 ∣ past + 1 <;>
    by_cases d400 : 400 ∣ past + 1 <;> simp [d4, d100, d400] at h100 h400 ⊢ <;> omega

theorem daysBeforeYear_mono : Monotone daysBeforeYear := by
  refine monotone_nat_of_le_succ fun year => ?_
  rcases Nat.eq_zero_or_pos year with rfl | hpos
  · exact Nat.le_refl _
  · rw [daysBeforeYear_succ hpos]
    exact Nat.le_add_right _ _

/-- A day lies in the year that is estimated for it. -/
theorem yearOfDay_spec (n : Nat) :
    1 ≤ Date.yearOfDay n ∧ daysBeforeYear (Date.yearOfDay n) ≤ n ∧
      n < daysBeforeYear (Date.yearOfDay n + 1) := by
  simp only [Date.yearOfDay]
  split
  · next h =>
    refine ⟨by omega, h, ?_⟩
    simp only [daysBeforeYear] at h ⊢
    omega
  · next h =>
    refine ⟨by omega, ?_, Nat.not_le.1 h⟩
    simp only [daysBeforeYear]
    omega

/-! ## Months -/

theorem daysInMonth_le (year month : Nat) : daysInMonth year month ≤ 31 := by
  rw [daysInMonth]
  split_ifs <;> decide

theorem daysBeforeMonth_one (year : Nat) : daysBeforeMonth year 1 = 0 := rfl

theorem daysBeforeMonth_succ {month : Nat} (year : Nat) (h : 1 ≤ month) :
    daysBeforeMonth year (month + 1) = daysBeforeMonth year month + daysInMonth year month := by
  obtain ⟨m, rfl⟩ := Nat.exists_eq_add_of_le' h
  rfl

theorem daysBeforeMonth_mono (year : Nat) {a b : Nat} (ha : 1 ≤ a) (h : a ≤ b) :
    daysBeforeMonth year a ≤ daysBeforeMonth year b := by
  induction b, h using Nat.le_induction with
  | base => exact Nat.le_refl _
  | succ b hb ih =>
    rw [daysBeforeMonth_succ year (Nat.le_trans ha hb)]
    omega

theorem daysBeforeMonth_end (year : Nat) : daysBeforeMonth year 13 = daysInYear year := by
  simp only [daysBeforeMonth, daysInMonth, daysInYear]
  cases isLeap year <;> rfl

/-- Going through the months from one on, a day is found in the month that it lies in, if it lies
before the last of them has ended. -/
theorem monthOfDay_spec (year : Nat) {first : Nat} (hfirst : 1 ≤ first) (count n : Nat)
    (hn : daysBeforeMonth year first + n < daysBeforeMonth year (first + count)) :
    ∃ month day, Date.monthOfDay year (List.range' first count) n = (month, day) ∧
      first ≤ month ∧ month < first + count ∧ 1 ≤ day ∧ day ≤ daysInMonth year month ∧
      daysBeforeMonth year month + (day - 1) = daysBeforeMonth year first + n := by
  induction count generalizing first n with
  | zero => exact absurd hn (by simp)
  | succ count ih =>
    have hnext := daysBeforeMonth_succ year hfirst
    rw [show first + (count + 1) = first + 1 + count by omega] at hn ⊢
    rw [List.range'_succ, Date.monthOfDay]
    -- the day is one of the first month, or it is counted on from the next one
    by_cases hlt : n < daysInMonth year first
    · rw [if_pos hlt]
      exact ⟨first, n + 1, rfl, Nat.le_refl _, by omega, by omega, hlt, rfl⟩
    · rw [if_neg hlt]
      have hrest : daysBeforeMonth year (first + 1) + (n - daysInMonth year first) <
          daysBeforeMonth year (first + 1 + count) := by omega
      obtain ⟨month, day, heq, hle, hmonth, hpos, hday, hsum⟩ := ih (by omega) _ hrest
      exact ⟨month, day, heq, by omega, by omega, hpos, hday, by omega⟩

/-! ## Dates -/

namespace Date

theorem daysBeforeMonth_add_day_lt (d : Date) :
    daysBeforeMonth d.year d.month + (d.day - 1) < daysBeforeMonth d.year (d.month + 1) := by
  have hday := d.day_le
  have hpos := d.day_pos
  rw [daysBeforeMonth_succ _ d.month_pos]
  omega

theorem daysBeforeYear_le_dayNumber (d : Date) : daysBeforeYear d.year ≤ d.dayNumber := by
  rw [dayNumber]
  omega

theorem dayNumber_lt (d : Date) : d.dayNumber < daysBeforeYear (d.year + 1) := by
  have hmonth := d.month_le
  have hlt := d.daysBeforeMonth_add_day_lt
  have hend := daysBeforeMonth_mono d.year (show 1 ≤ d.month + 1 by omega)
    (show d.month + 1 ≤ 13 by omega)
  rw [daysBeforeMonth_end] at hend
  rw [dayNumber, daysBeforeYear_succ d.year_pos]
  omega

theorem dayNumber_lt_end (d : Date) : d.dayNumber < daysBeforeYear 10000 :=
  Nat.lt_of_lt_of_le d.dayNumber_lt (daysBeforeYear_mono (Nat.succ_le_succ d.year_le))

/-- The year, the month and the day. -/
def parts (d : Date) : List Nat := [d.year, d.month, d.day]

theorem parts_injective : Function.Injective parts := by
  intro a b h
  cases a
  cases b
  simp only [parts, List.cons.injEq, and_true] at h
  obtain ⟨rfl, rfl, rfl⟩ := h
  rfl

theorem ofParts_eq_ok_iff {year month day : Nat} {d : Date} :
    ofParts year month day = .ok d ↔ d.parts = [year, month, day] := by
  constructor
  · intro h
    rw [ofParts] at h
    split_ifs at h
    cases h
    rfl
  · intro h
    simp only [parts, List.cons.injEq, and_true] at h
    obtain ⟨rfl, rfl, rfl⟩ := h
    rw [ofParts, dif_pos ⟨d.year_pos, d.year_le⟩, dif_pos ⟨d.month_pos, d.month_le⟩,
      dif_pos ⟨d.day_pos, d.day_le⟩]

theorem dayNumber_lt_of_parts_lt {a b : Date} (h : a.parts < b.parts) :
    a.dayNumber < b.dayNumber := by
  simp only [parts, List.cons_lt_cons_iff, List.not_lt_nil, and_false, or_false] at h
  rcases h with hyear | ⟨hyear, hmonth | ⟨hmonth, hday⟩⟩
  · calc a.dayNumber < daysBeforeYear (a.year + 1) := a.dayNumber_lt
      _ ≤ daysBeforeYear b.year := daysBeforeYear_mono hyear
      _ ≤ b.dayNumber := b.daysBeforeYear_le_dayNumber
  · have := a.daysBeforeMonth_add_day_lt
    have := daysBeforeMonth_mono a.year (show 1 ≤ a.month + 1 by omega) hmonth
    rw [dayNumber, dayNumber, ← hyear]
    omega
  · have := a.day_pos
    rw [dayNumber, dayNumber, ← hyear, ← hmonth]
    omega

theorem dayNumber_injective : Function.Injective dayNumber :=
  injective_of_parts_lt parts_injective dayNumber_lt_of_parts_lt

/-- Days compare as the parts of their dates do. -/
theorem dayNumber_le_iff {a b : Date} : a.dayNumber ≤ b.dayNumber ↔ a.parts ≤ b.parts :=
  le_iff_of_parts_lt parts_injective dayNumber_lt_of_parts_lt

theorem ofDayNumber?_eq (n : Nat) :
    ofDayNumber? n =
      (ofParts (yearOfDay n)
        (monthOfDay (yearOfDay n) [1, 2, 3, 4, 5, 6, 7, 8, 9, 10, 11, 12]
          (n - daysBeforeYear (yearOfDay n))).1
        (monthOfDay (yearOfDay n) [1, 2, 3, 4, 5, 6, 7, 8, 9, 10, 11, 12]
          (n - daysBeforeYear (yearOfDay n))).2).toOption := rfl

/-- Every day up to the end of year 9999 is that of a date. -/
theorem exists_ofDayNumber? {n : Nat} (h : n < daysBeforeYear 10000) :
    ∃ d, ofDayNumber? n = some d ∧ d.dayNumber = n := by
  obtain ⟨hpos, hle, hlt⟩ := yearOfDay_spec n
  -- a day in front of the year 10000 belongs to a year in front of it
  have hyear : yearOfDay n < 10000 := daysBeforeYear_mono.reflect_lt (Nat.lt_of_le_of_lt hle h)
  rw [daysBeforeYear_succ hpos, ← daysBeforeMonth_end] at hlt
  have hmonths : daysBeforeMonth (yearOfDay n) 1 + (n - daysBeforeYear (yearOfDay n)) <
      daysBeforeMonth (yearOfDay n) (1 + 12) := by
    rw [daysBeforeMonth_one, show 1 + 12 = 13 from rfl]
    omega
  obtain ⟨month, day, heq, hmonth, hmonth', hday, hday', hsum⟩ :=
    monthOfDay_spec (yearOfDay n) (Nat.le_refl 1) 12 _ hmonths
  rw [daysBeforeMonth_one] at hsum
  have hfound : monthOfDay (yearOfDay n) [1, 2, 3, 4, 5, 6, 7, 8, 9, 10, 11, 12]
      (n - daysBeforeYear (yearOfDay n)) = (month, day) := heq
  rw [ofDayNumber?_eq, hfound, ofParts, dif_pos ⟨hpos, Nat.le_of_lt_succ hyear⟩,
    dif_pos ⟨hmonth, Nat.le_of_lt_succ hmonth'⟩, dif_pos ⟨hday, hday'⟩]
  refine ⟨_, rfl, ?_⟩
  simp only [dayNumber]
  omega

theorem ofDayNumber?_eq_some_iff {n : Nat} {d : Date} :
    ofDayNumber? n = some d ↔ d.dayNumber = n := by
  constructor
  · intro h
    by_cases hn : n < daysBeforeYear 10000
    · obtain ⟨d', h', rfl⟩ := exists_ofDayNumber? hn
      rw [h] at h'
      rw [Option.some.inj h']
    · -- the year of such a day is refused
      obtain ⟨-, -, hlt⟩ := yearOfDay_spec n
      have hyear : 10000 < yearOfDay n + 1 :=
        daysBeforeYear_mono.reflect_lt (Nat.lt_of_le_of_lt (Nat.not_lt.1 hn) hlt)
      rw [ofDayNumber?_eq, ofParts, dif_neg (by omega)] at h
      cases h
  · rintro rfl
    obtain ⟨d', h, hd⟩ := exists_ofDayNumber? d.dayNumber_lt_end
    rw [h, dayNumber_injective hd]

end Date

/-! ## Times of day -/

namespace TimeOfDay

/-- The hour, the minute, the second and the microsecond. -/
def parts (t : TimeOfDay) : List Nat := [t.hour, t.minute, t.second, t.microsecond]

theorem parts_injective : Function.Injective parts := by
  intro a b h
  cases a
  cases b
  simp only [parts, List.cons.injEq, and_true] at h
  obtain ⟨rfl, rfl, rfl, rfl⟩ := h
  rfl

theorem ofParts_eq_ok_iff {hour minute second microsecond : Nat} {t : TimeOfDay} :
    ofParts hour minute second microsecond = .ok t ↔
      t.parts = [hour, minute, second, microsecond] := by
  constructor
  · intro h
    rw [ofParts] at h
    split_ifs at h
    cases h
    rfl
  · intro h
    simp only [parts, List.cons.injEq, and_true] at h
    obtain ⟨rfl, rfl, rfl, rfl⟩ := h
    rw [ofParts, dif_pos t.hour_lt, dif_pos t.minute_lt, dif_pos t.second_lt,
      dif_pos t.microsecond_lt]

theorem microseconds_lt (t : TimeOfDay) : t.microseconds < dayLength := by
  have := t.hour_lt
  have := t.minute_lt
  have := t.second_lt
  have := t.microsecond_lt
  rw [microseconds, dayLength]
  omega

theorem microseconds_ofMicroseconds {n : Nat} (h : n < dayLength) :
    (ofMicroseconds n).microseconds = n := by
  rw [dayLength] at h
  simp only [microseconds, ofMicroseconds]
  omega

theorem microseconds_lt_of_parts_lt {a b : TimeOfDay} (h : a.parts < b.parts) :
    a.microseconds < b.microseconds := by
  have := a.minute_lt
  have := a.second_lt
  have := a.microsecond_lt
  simp only [parts, List.cons_lt_cons_iff, List.not_lt_nil, and_false, or_false] at h
  rw [microseconds, microseconds]
  omega

theorem microseconds_injective : Function.Injective microseconds :=
  injective_of_parts_lt parts_injective microseconds_lt_of_parts_lt

end TimeOfDay

/-! ## Dates with times -/

namespace DateTime

/-- The parts of the date, and then those of the time. -/
def parts (t : DateTime) : List Nat := t.date.parts ++ t.time.parts

theorem parts_lt_iff {a b : DateTime} :
    a.parts < b.parts ↔
      a.date.parts < b.date.parts ∨ a.date.parts = b.date.parts ∧ a.time.parts < b.time.parts := by
  simp only [parts, Date.parts, List.cons_append, List.nil_append, List.cons_lt_cons_iff,
    List.not_lt_nil, and_false, or_false, List.cons.injEq, and_true]
  grind

theorem parts_injective : Function.Injective parts := by
  intro a b h
  obtain ⟨hdate, htime⟩ := List.append_inj h rfl
  obtain ⟨date, time⟩ := a
  obtain ⟨date', time'⟩ := b
  obtain rfl : date = date' := Date.parts_injective hdate
  obtain rfl : time = time' := TimeOfDay.parts_injective htime
  rfl

theorem ofParts_eq_ok_iff {year month day hour minute second microsecond : Nat} {t : DateTime} :
    ofParts year month day hour minute second microsecond = .ok t ↔
      t.parts = [year, month, day, hour, minute, second, microsecond] := by
  have hsplit : t.parts = [year, month, day, hour, minute, second, microsecond] ↔
      Date.ofParts year month day = .ok t.date ∧
        TimeOfDay.ofParts hour minute second microsecond = .ok t.time := by
    rw [Date.ofParts_eq_ok_iff, TimeOfDay.ofParts_eq_ok_iff]
    refine ⟨fun h => List.append_inj h rfl, fun h => ?_⟩
    rw [parts, h.1, h.2]
    rfl
  rw [hsplit, ofParts]
  cases Date.ofParts year month day with
  | error e => simp [bind, Except.bind]
  | ok date =>
    cases TimeOfDay.ofParts hour minute second microsecond with
    | error e => simp [bind, Except.bind]
    | ok time =>
      obtain ⟨date', time'⟩ := t
      simp [bind, Except.bind, pure, Except.pure]

theorem instant_lt_of_parts_lt {a b : DateTime} (h : a.parts < b.parts) :
    a.instant < b.instant := by
  rw [instant, instant]
  rcases parts_lt_iff.1 h with hdate | ⟨hdate, htime⟩
  · have hday := Date.dayNumber_lt_of_parts_lt hdate
    have ha := a.time.microseconds_lt
    rw [dayLength] at ha ⊢
    omega
  · have ht := TimeOfDay.microseconds_lt_of_parts_lt htime
    rw [Date.parts_injective hdate]
    omega

theorem instant_injective : Function.Injective instant :=
  injective_of_parts_lt parts_injective instant_lt_of_parts_lt

/-- Instants compare as the parts of their dates and times do. -/
theorem instant_le_iff {a b : DateTime} : a.instant ≤ b.instant ↔ a.parts ≤ b.parts :=
  le_iff_of_parts_lt parts_injective instant_lt_of_parts_lt

/-- What is not later is not on a later day. -/
theorem dayNumber_le_of_parts_le {a b : DateTime} (h : a.parts ≤ b.parts) :
    a.date.dayNumber ≤ b.date.dayNumber := by
  rw [Date.dayNumber_le_iff]
  by_contra hlt
  exact absurd h (not_le.2 (parts_lt_iff.2 (.inl (not_le.1 hlt))))

theorem ofInstant?_eq_some_iff {n : Int} {t : DateTime} :
    ofInstant? n = some t ↔ (t.instant : Int) = n := by
  constructor
  · intro h
    cases n with
    | negSucc n => cases h
    | ofNat n =>
      obtain ⟨date, hdate, rfl⟩ := Option.map_eq_some_iff.1 h
      -- what is left of the division is a time of day
      have hlt : n % dayLength < dayLength := Nat.mod_lt _ (by decide)
      rw [instant, Date.ofDayNumber?_eq_some_iff.1 hdate,
        TimeOfDay.microseconds_ofMicroseconds hlt, Nat.div_add_mod']
      rfl
  · rintro rfl
    have hlt := t.time.microseconds_lt
    have hday : t.instant / dayLength = t.date.dayNumber := by
      rw [instant, Nat.mul_comm, Nat.mul_add_div (by decide), Nat.div_eq_of_lt hlt, Nat.add_zero]
    have htime : t.instant % dayLength = t.time.microseconds := by
      rw [instant, Nat.mul_comm, Nat.mul_add_mod, Nat.mod_eq_of_lt hlt]
    show (Date.ofDayNumber? (t.instant / dayLength)).map _ = _
    rw [hday, htime, Date.ofDayNumber?_eq_some_iff.2 rfl, Option.map_some,
      TimeOfDay.microseconds_injective (TimeOfDay.microseconds_ofMicroseconds hlt)]

/-- No date and time is read back from a count just when there is none in the calendar. -/
theorem ofInstant?_eq_none_iff {n : Int} :
    ofInstant? n = none ↔ ∀ t : DateTime, (t.instant : Int) ≠ n := by
  rw [Option.eq_none_iff_forall_ne_some]
  exact forall_congr' fun t => not_congr ofInstant?_eq_some_iff

end DateTime

end Headline.Calendar
