import Headline.Calendar.FeedDate
import Headline.Proofs.Instants
import Mathlib.Data.List.Forall2
import Mathlib.Data.List.Infix

/-!
# Dates inside a text

A date of the feed is found wherever it stands in a text. No two dates overlap: moved along itself,
the shape has a place whose character cannot stand there (`shape_clashes`). So what stands in front
of a date hides it only if it holds a date of its own (`leftmost_of_dateless`), and the date that is
read is the leftmost one (`parse_reads_leftmost`).
-/

namespace Headline.Calendar.FeedDate

/-! ## Spellings -/

/-- The numbers that make up a date of the feed, in no particular range. -/
structure Fields where
  year : Nat
  month : Nat
  day : Nat
  hour : Nat
  minute : Nat
  second : Nat
  deriving DecidableEq, Repr

/-- The numbers are those of a date and time with whole seconds. -/
def Fields.Denotes (f : Fields) (t : DateTime) : Prop :=
  t.parts = [f.year, f.month, f.day, f.hour, f.minute, f.second, 0]

/-- A text consists of so many digits, each of any script, with these values. -/
def HasDigits (width : Nat) (s : Text) (ds : List Nat) : Prop :=
  s.length = width ∧ List.Forall₂ (fun c d => decimalValue? c = some d) s ds

/-- A text writes a number in exactly `width` digits. -/
def Writes (width n : Nat) (s : Text) : Prop := ∃ ds, HasDigits width s ds ∧ numberOfDigits ds = n

/-- A text spells out these numbers the way the feed does. -/
def Spells (f : Fields) (r : Text) : Prop :=
  ∃ year month day hour minute second,
    r = year ++ '年' :: (month ++ '月' :: (day ++ '日' :: ' ' :: (hour ++ '時' :: (minute ++
      '分' :: (second ++ ['秒']))))) ∧
    Writes 4 f.year year ∧ Writes 2 f.month month ∧ Writes 2 f.day day ∧ Writes 2 f.hour hour ∧
    Writes 2 f.minute minute ∧ Writes 2 f.second second

/-- Nowhere in a text is there a date. -/
def Dateless (s : Text) : Prop := ∀ f r, r <:+: s → ¬ Spells f r

/-- The leftmost date in a text spells out these numbers. -/
def Leftmost (f : Fields) (s : Text) : Prop :=
  ∃ before r after, s = before ++ r ++ after ∧ Spells f r ∧
    ∀ f' before' r' after', s = before' ++ r' ++ after' → Spells f' r' →
      before.length ≤ before'.length

theorem Spells.length {f : Fields} {r : Text} (h : Spells f r) : r.length = shape.length := by
  obtain ⟨year, month, day, hour, minute, second, rfl, ⟨_, hyear, -⟩, ⟨_, hmonth, -⟩, ⟨_, hday, -⟩,
    ⟨_, hhour, -⟩, ⟨_, hminute, -⟩, _, hsecond, -⟩ := h
  simp [hyear.1, hmonth.1, hday.1, hhour.1, hminute.1, hsecond.1, shape]

/-! ## Matching numbers -/

section Numbers

variable {ps : List Place} {s : Text} {ds : List Nat} {width : Nat} {m : Char}

theorem HasDigits.length (h : HasDigits width s ds) : ds.length = width :=
  (List.Forall₂.length_eq h.2).symm.trans h.1

theorem matchFront_mark_iff :
    matchFront (.mark m :: ps) s = some ds ↔
      ∃ rest, s = m :: rest ∧ matchFront ps rest = some ds := by
  cases s with
  | nil => simp [matchFront]
  | cons c s =>
    rw [matchFront]
    split
    · next h => simp [h]
    · next h => simp [h]

theorem matchFront_digits_iff :
    matchFront (List.replicate width .digit ++ ps) s = some ds ↔
      ∃ w rest ds₁ ds₂, s = w ++ rest ∧ HasDigits width w ds₁ ∧
        matchFront ps rest = some ds₂ ∧ ds = ds₁ ++ ds₂ := by
  induction width generalizing s ds with
  | zero =>
    constructor
    · exact fun h => ⟨[], s, [], ds, rfl, ⟨rfl, .nil⟩, h, rfl⟩
    · rintro ⟨w, rest, ds₁, ds₂, rfl, ⟨hlength, hw⟩, h, rfl⟩
      obtain rfl := List.length_eq_zero_iff.1 hlength
      cases hw
      exact h
  | succ width ih =>
    rw [List.replicate_succ, List.cons_append]
    constructor
    · intro h
      cases s with
      | nil => cases h
      | cons c s =>
        rw [matchFront] at h
        cases hc : decimalValue? c with
        | none =>
          rw [hc] at h
          cases h
        | some d =>
          rw [hc] at h
          obtain ⟨ds', hds', rfl⟩ := Option.map_eq_some_iff.1 h
          obtain ⟨w, rest, ds₁, ds₂, rfl, ⟨hlength, hw⟩, hrest, rfl⟩ := ih.1 hds'
          exact ⟨c :: w, rest, d :: ds₁, ds₂, rfl, ⟨congrArg (· + 1) hlength, .cons hc hw⟩, hrest,
            rfl⟩
    · rintro ⟨w, rest, ds₁, ds₂, rfl, ⟨hlength, hw⟩, h, rfl⟩
      cases hw with
      | nil => cases hlength
      | @cons c d w ds₁ hc hw =>
        have hrest := ih.2 ⟨w, rest, ds₁, ds₂, rfl, ⟨Nat.succ.inj hlength, hw⟩, h, rfl⟩
        rw [List.cons_append, matchFront, hc]
        exact Option.map_eq_some_iff.2 ⟨_, hrest, rfl⟩

/-- The places of a number and of the mark behind it, in front of others. -/
def numbered (width : Nat) (m : Char) (ps : List Place) : List Place :=
  List.replicate width .digit ++ .mark m :: ps

theorem matchFront_number_iff :
    matchFront (numbered width m ps) s = some ds ↔
      ∃ w rest ds₁ ds₂, s = w ++ m :: rest ∧ HasDigits width w ds₁ ∧
        matchFront ps rest = some ds₂ ∧ ds = ds₁ ++ ds₂ := by
  rw [numbered, matchFront_digits_iff]
  constructor
  · rintro ⟨w, rest, ds₁, ds₂, rfl, hw, h, rfl⟩
    obtain ⟨rest, rfl, hrest⟩ := matchFront_mark_iff.1 h
    exact ⟨w, rest, ds₁, ds₂, rfl, hw, hrest, rfl⟩
  · rintro ⟨w, rest, ds₁, ds₂, rfl, hw, h, rfl⟩
    exact ⟨w, m :: rest, ds₁, ds₂, rfl, hw, matchFront_mark_iff.2 ⟨rest, rfl, h⟩, rfl⟩

end Numbers

/-! ## Matching a date -/

/-- The date and time that the numbers make up. -/
def Fields.dateTime (f : Fields) : Except RangeFault DateTime :=
  DateTime.ofParts f.year f.month f.day f.hour f.minute f.second 0

section Dates

variable {f : Fields} {r s : Text} {ds : List Nat}

theorem shape_eq :
    shape = numbered 4 '年' (numbered 2 '月' (numbered 2 '日' (.mark ' ' :: numbered 2 '時'
      (numbered 2 '分' (numbered 2 '秒' []))))) := rfl

/-- Fourteen digits are those of six numbers, one behind the other. -/
theorem ofDigits_append {years months days hours minutes seconds : List Nat}
    (hyears : years.length = 4) (hmonths : months.length = 2) (hdays : days.length = 2)
    (hhours : hours.length = 2) (hminutes : minutes.length = 2) (hseconds : seconds.length = 2) :
    ofDigits (years ++ (months ++ (days ++ (hours ++ (minutes ++ (seconds ++ [])))))) =
      Fields.dateTime ⟨numberOfDigits years, numberOfDigits months, numberOfDigits days,
        numberOfDigits hours, numberOfDigits minutes, numberOfDigits seconds⟩ := by
  simp (disch := omega) [ofDigits, Fields.dateTime, List.drop_append, List.drop_of_length_le,
    List.take_of_length_le, *]

/-- What matches the shape is a date, and its digits make up the numbers of that date. -/
theorem exists_spells_of_matchFront (h : matchFront shape s = some ds) :
    ∃ f r after, s = r ++ after ∧ Spells f r ∧ ofDigits ds = f.dateTime := by
  -- the shape is taken off number by number, with the marks in between
  rw [shape_eq] at h
  obtain ⟨year, s₁, years, ds₁, rfl, hyear, h₁, rfl⟩ := matchFront_number_iff.1 h
  obtain ⟨month, s₂, months, ds₂, rfl, hmonth, h₂, rfl⟩ := matchFront_number_iff.1 h₁
  obtain ⟨day, s₃, days, ds₃, rfl, hday, h₃, rfl⟩ := matchFront_number_iff.1 h₂
  obtain ⟨s₄, rfl, h₄⟩ := matchFront_mark_iff.1 h₃
  obtain ⟨hour, s₅, hours, ds₅, rfl, hhour, h₅, rfl⟩ := matchFront_number_iff.1 h₄
  obtain ⟨minute, s₆, minutes, ds₆, rfl, hminute, h₆, rfl⟩ := matchFront_number_iff.1 h₅
  obtain ⟨second, after, seconds, ds₇, rfl, hsecond, h₇, rfl⟩ := matchFront_number_iff.1 h₆
  cases h₇
  refine ⟨⟨_, _, _, _, _, _⟩, _, after, ?_, ⟨year, month, day, hour, minute, second, rfl,
    ⟨years, hyear, rfl⟩, ⟨months, hmonth, rfl⟩, ⟨days, hday, rfl⟩, ⟨hours, hhour, rfl⟩,
    ⟨minutes, hminute, rfl⟩, seconds, hsecond, rfl⟩, ofDigits_append hyear.length hmonth.length
    hday.length hhour.length hminute.length hsecond.length⟩
  simp

theorem matchFront_of_spells (h : Spells f r) (after : Text) :
    ∃ ds, matchFront shape (r ++ after) = some ds ∧ ofDigits ds = f.dateTime := by
  obtain ⟨year, month, day, hour, minute, second, rfl, ⟨years, hyear, hyear'⟩,
    ⟨months, hmonth, hmonth'⟩, ⟨days, hday, hday'⟩, ⟨hours, hhour, hhour'⟩,
    ⟨minutes, hminute, hminute'⟩, seconds, hsecond, hsecond'⟩ := h
  refine ⟨years ++ (months ++ (days ++ (hours ++ (minutes ++ (seconds ++ []))))), ?_, ?_⟩
  · simp only [List.append_assoc, List.cons_append, List.nil_append, shape_eq]
    refine matchFront_number_iff.2 ⟨year, _, years, _, rfl, hyear, ?_, rfl⟩
    refine matchFront_number_iff.2 ⟨month, _, months, _, rfl, hmonth, ?_, rfl⟩
    refine matchFront_number_iff.2 ⟨day, _, days, _, rfl, hday, ?_, rfl⟩
    refine matchFront_mark_iff.2 ⟨_, rfl, ?_⟩
    refine matchFront_number_iff.2 ⟨hour, _, hours, _, rfl, hhour, ?_, rfl⟩
    refine matchFront_number_iff.2 ⟨minute, _, minutes, _, rfl, hminute, ?_, rfl⟩
    exact matchFront_number_iff.2 ⟨second, after, seconds, [], rfl, hsecond, rfl, rfl⟩
  · rw [ofDigits_append hyear.length hmonth.length hday.length hhour.length hminute.length
      hsecond.length, hyear', hmonth', hday', hhour', hminute', hsecond']

end Dates

/-! ## Overlaps -/

namespace Place

/-- A character may stand at a place of the shape. -/
def Admits : Place → Char → Prop
  | digit, c => (decimalValue? c).isSome
  | mark m, c => c = m

/-- No character may stand at both places. -/
def clashes : Place → Place → Bool
  | digit, digit => false
  | digit, mark m | mark m, digit => (decimalValue? m).isNone
  | mark m, mark m' => m != m'

theorem clashes_eq_false {p q : Place} {c : Char} (hp : p.Admits c) (hq : q.Admits c) :
    p.clashes q = false := by
  cases p <;> cases q <;> simp_all [Admits, clashes]

end Place

section Overlaps

variable {ps qs : List Place} {p : Place} {s : Text} {ds ds' : List Nat}

theorem exists_cons_of_matchFront (h : matchFront (p :: ps) s = some ds) :
    ∃ c rest ds', s = c :: rest ∧ p.Admits c ∧ matchFront ps rest = some ds' := by
  cases p with
  | mark m =>
    obtain ⟨rest, rfl, hrest⟩ := matchFront_mark_iff.1 h
    exact ⟨m, rest, ds, rfl, rfl, hrest⟩
  | digit =>
    change matchFront (List.replicate 1 .digit ++ ps) s = some ds at h
    obtain ⟨w, rest, ds₁, ds₂, rfl, ⟨hlength, hw⟩, hrest, rfl⟩ := matchFront_digits_iff.1 h
    cases hw with
    | nil => cases hlength
    | @cons c d w ds₁ hc hw =>
      obtain rfl := List.length_eq_zero_iff.1 (Nat.succ.inj hlength)
      exact ⟨c, rest, ds₂, rfl, by rw [Place.Admits, hc]; rfl, hrest⟩

theorem exists_matchFront_drop (h : matchFront ps s = some ds) (k : Nat) :
    ∃ ds', matchFront (ps.drop k) (s.drop k) = some ds' := by
  induction k generalizing ps s ds with
  | zero => exact ⟨ds, h⟩
  | succ k ih =>
    cases ps with
    | nil => exact ⟨[], rfl⟩
    | cons p ps =>
      obtain ⟨c, rest, ds', rfl, -, hrest⟩ := exists_cons_of_matchFront h
      exact ih hrest

/-- Where two lists of places match one text, no place of the one clashes with that of the other. -/
theorem not_clashes_of_matchFront (hp : matchFront ps s = some ds)
    (hq : matchFront qs s = some ds') : ∀ pq ∈ ps.zip qs, pq.1.clashes pq.2 = false := by
  induction ps generalizing qs s ds ds' with
  | nil => simp
  | cons p ps ih =>
    cases qs with
    | nil => simp
    | cons q qs =>
      obtain ⟨c, rest, ds₁, rfl, hpc, hps⟩ := exists_cons_of_matchFront hp
      obtain ⟨c', rest', ds₂, heq, hqc, hqs⟩ := exists_cons_of_matchFront hq
      obtain ⟨rfl, rfl⟩ := List.cons_eq_cons.1 heq
      rw [List.zip_cons_cons, List.forall_mem_cons]
      exact ⟨Place.clashes_eq_false hpc hqc, ih hps hqs⟩

/-- The shape clashes with itself wherever it is moved along itself. -/
theorem shape_clashes {k : Nat} (hpos : 0 < k) (hlt : k < shape.length) :
    ∃ pq ∈ (shape.drop k).zip shape, pq.1.clashes pq.2 = true := by
  have hall : ∀ k < 21, 0 < k →
      (((shape.drop k).zip shape).any fun pq => pq.1.clashes pq.2) = true := by decide +kernel
  exact List.any_eq_true.1 (hall k hlt hpos)

/-- No date starts inside another one. -/
theorem matchFront_drop_eq_none (h : matchFront shape s = some ds) {k : Nat} (hpos : 0 < k)
    (hlt : k < shape.length) : matchFront shape (s.drop k) = none := by
  rw [Option.eq_none_iff_forall_ne_some]
  intro ds' h'
  obtain ⟨ds₁, h₁⟩ := exists_matchFront_drop h k
  obtain ⟨pq, hmem, hclash⟩ := shape_clashes hpos hlt
  rw [not_clashes_of_matchFront h₁ h' pq hmem] at hclash
  cases hclash

end Overlaps

/-! ## Searching -/

section Searching

variable {f : Fields} {p r s z : Text} {ds : List Nat}

theorem search_cons_of_some {c : Char} (h : matchFront shape (c :: s) = some ds) :
    search (c :: s) = some ds := by
  rw [search, h]

theorem search_cons_of_none {c : Char} (h : matchFront shape (c :: s) = none) :
    search (c :: s) = search s := by
  rw [search, h]

/-- The search yields the first match from the left. -/
theorem search_eq_some_iff :
    search s = some ds ↔
      ∃ k, matchFront shape (s.drop k) = some ds ∧ ∀ j < k, matchFront shape (s.drop j) = none := by
  induction s with
  | nil =>
    constructor
    · exact fun h => by cases h
    · rintro ⟨k, h, -⟩
      rw [List.drop_nil] at h
      cases h
  | cons c s ih =>
    cases hc : matchFront shape (c :: s) with
    | some ds' =>
      rw [search_cons_of_some hc]
      -- a match at the very front is the leftmost one
      constructor
      · intro h
        exact ⟨0, hc.trans h, fun j hj => absurd hj (Nat.not_lt_zero j)⟩
      · rintro ⟨k, h, hfirst⟩
        cases k with
        | zero => exact hc.symm.trans h
        | succ k => cases hc.symm.trans (hfirst 0 (Nat.succ_pos k))
    | none =>
      rw [search_cons_of_none hc, ih]
      -- without a match at the front all places move on by one
      constructor
      · rintro ⟨k, h, hfirst⟩
        refine ⟨k + 1, h, fun j hj => ?_⟩
        cases j with
        | zero => exact hc
        | succ j => exact hfirst j (Nat.lt_of_succ_lt_succ hj)
      · rintro ⟨k, h, hfirst⟩
        cases k with
        | zero => cases hc.symm.trans h
        | succ k => exact ⟨k, h, fun j hj => hfirst (j + 1) (Nat.succ_lt_succ hj)⟩

theorem search_eq_none_iff : search s = none ↔ ∀ k, matchFront shape (s.drop k) = none := by
  induction s with
  | nil =>
    refine iff_of_true rfl fun k => ?_
    rw [List.drop_nil]
    rfl
  | cons c s ih =>
    cases hc : matchFront shape (c :: s) with
    | some ds =>
      rw [search_cons_of_some hc]
      exact iff_of_false (by simp) fun h => by cases hc.symm.trans (h 0)
    | none =>
      rw [search_cons_of_none hc, ih]
      refine ⟨fun h k => ?_, fun h k => h (k + 1)⟩
      cases k with
      | zero => exact hc
      | succ k => exact h k

/-- A match somewhere in a text is a date there. -/
theorem exists_spells_of_drop {k : Nat} (h : matchFront shape (s.drop k) = some ds) :
    ∃ f r after, s = s.take k ++ r ++ after ∧ Spells f r ∧ ofDigits ds = f.dateTime := by
  obtain ⟨f, r, after, hdrop, hr, hds⟩ := exists_spells_of_matchFront h
  refine ⟨f, r, after, ?_, hr, hds⟩
  rw [List.append_assoc, ← hdrop, List.take_append_drop]

theorem search_of_leftmost (h : Leftmost f s) :
    ∃ ds, search s = some ds ∧ ofDigits ds = f.dateTime := by
  obtain ⟨before, r, after, rfl, hr, hfirst⟩ := h
  obtain ⟨ds, hmatch, hds⟩ := matchFront_of_spells hr after
  refine ⟨ds, search_eq_some_iff.2 ⟨before.length, ?_, fun j hj => ?_⟩, hds⟩
  · rw [List.append_assoc, List.drop_left]
    exact hmatch
  · rw [Option.eq_none_iff_forall_ne_some]
    intro ds' h'
    obtain ⟨f', r', after', heq, hr', -⟩ := exists_spells_of_drop h'
    have hle := hfirst f' _ r' after' heq hr'
    rw [List.length_take] at hle
    omega

theorem exists_leftmost_of_search (h : search s = some ds) :
    ∃ f, Leftmost f s ∧ ofDigits ds = f.dateTime := by
  obtain ⟨k, hmatch, hfirst⟩ := search_eq_some_iff.1 h
  obtain ⟨f, r, after, heq, hr, hds⟩ := exists_spells_of_drop hmatch
  refine ⟨f, ⟨s.take k, r, after, heq, hr, fun f' before' r' after' heq' hr' => ?_⟩, hds⟩
  obtain ⟨ds', hmatch', -⟩ := matchFront_of_spells hr' after'
  have hk : ¬ before'.length < k := by
    intro hlt
    have hnone := hfirst _ hlt
    rw [heq', List.append_assoc, List.drop_left, hmatch'] at hnone
    cases hnone
  rw [List.length_take]
  omega

theorem dateless_iff : Dateless s ↔ search s = none := by
  rw [search_eq_none_iff]
  constructor
  · intro h k
    rw [Option.eq_none_iff_forall_ne_some]
    intro ds hmatch
    obtain ⟨f, r, after, heq, hr, -⟩ := exists_spells_of_drop hmatch
    exact h f r ⟨_, after, heq.symm⟩ hr
  · rintro h f r ⟨before, after, rfl⟩ hr
    obtain ⟨ds, hmatch, -⟩ := matchFront_of_spells hr after
    have hnone := h before.length
    rw [List.append_assoc, List.drop_left, hmatch] at hnone
    cases hnone

/-- What holds no date hides none behind it, whatever digits and marks it ends with. -/
theorem leftmost_of_dateless (hr : Spells f r) (hp : Dateless p) (z : Text) :
    Leftmost f (p ++ r ++ z) := by
  refine ⟨p, r, z, rfl, hr, fun f' before' r' after' heq hr' => Nat.not_lt.1 fun hlt => ?_⟩
  obtain ⟨ds, hmatch, -⟩ := matchFront_of_spells hr z
  obtain ⟨ds', hmatch', -⟩ := matchFront_of_spells hr' after'
  have hdrop : (r' ++ after').drop (p.length - before'.length) = r ++ z := by
    have hsuffix : (p ++ r ++ z).drop p.length = r ++ z := by
      rw [List.append_assoc, List.drop_left]
    rwa [heq, List.append_assoc, ← Nat.add_sub_cancel' (Nat.le_of_lt hlt), ← List.drop_drop,
      List.drop_left] at hsuffix
  by_cases hinside : p.length - before'.length < shape.length
  · -- the other date would overlap this one
    have hnone := matchFront_drop_eq_none hmatch' (Nat.sub_pos_of_lt hlt) hinside
    rw [hdrop, hmatch] at hnone
    cases hnone
  · -- the other date would lie in front
    refine hp f' r' ?_ hr'
    have hprefix : before' ++ r' <+: p := by
      have hwhole : p <+: p ++ r ++ z := ⟨r ++ z, (List.append_assoc ..).symm⟩
      refine List.prefix_of_prefix_length_le ⟨after', heq.symm⟩ hwhole ?_
      rw [List.length_append, hr'.length]
      omega
    exact (List.suffix_append before' r').isInfix.trans hprefix.isInfix

end Searching

/-! ## Reading -/

section Reading

variable {f : Fields} {s : Text} {t : DateTime}

theorem dateTime_eq_ok_iff : f.dateTime = .ok t ↔ f.Denotes t := DateTime.ofParts_eq_ok_iff

theorem parse_of_dateless (h : Dateless s) : parse s = .error (.absent s) := by
  rw [parse, dateless_iff.1 h]

theorem parse_of_leftmost (h : Leftmost f s) : parse s = f.dateTime.mapError .outOfRange := by
  obtain ⟨ds, hsearch, hds⟩ := search_of_leftmost h
  rw [parse, hsearch, ← hds]

/-- A text holds no date, or a leftmost one. -/
theorem dateless_or_leftmost (s : Text) : Dateless s ∨ ∃ f, Leftmost f s := by
  rw [dateless_iff]
  cases h : search s with
  | none => exact .inl rfl
  | some ds =>
    obtain ⟨f, hf, -⟩ := exists_leftmost_of_search h
    exact .inr ⟨f, hf⟩

theorem parse_eq_ok_iff : parse s = .ok t ↔ ∃ f, Leftmost f s ∧ f.Denotes t := by
  constructor
  · intro h
    rcases dateless_or_leftmost s with hs | ⟨f, hf⟩
    · rw [parse_of_dateless hs] at h
      cases h
    · refine ⟨f, hf, dateTime_eq_ok_iff.1 ?_⟩
      rw [parse_of_leftmost hf] at h
      cases hdate : f.dateTime with
      | error e =>
        rw [hdate] at h
        cases h
      | ok t' =>
        rw [hdate] at h
        exact congrArg _ (Except.ok.inj h)
  · rintro ⟨f, hf, ht⟩
    rw [parse_of_leftmost hf, dateTime_eq_ok_iff.2 ht]
    rfl

theorem exists_error_iff :
    (∃ fault, parse s = .error fault) ↔ Dateless s ∨ ∃ f, Leftmost f s ∧ ∀ t, ¬ f.Denotes t := by
  constructor
  · rintro ⟨fault, hfault⟩
    refine (dateless_or_leftmost s).imp_right fun ⟨f, hf⟩ => ⟨f, hf, fun t ht => ?_⟩
    cases hfault.symm.trans (parse_eq_ok_iff.2 ⟨f, hf, ht⟩)
  · rintro (hs | ⟨f, hf, hnone⟩)
    · exact ⟨_, parse_of_dateless hs⟩
    · cases hdate : f.dateTime with
      | error e => exact ⟨.outOfRange e, by rw [parse_of_leftmost hf, hdate]; rfl⟩
      | ok t => exact absurd (dateTime_eq_ok_iff.1 hdate) (hnone t)

end Reading

/-- A date that is written out in the digits of any scripts is read wherever it stands behind text
that holds no date, even behind the beginning of one. In any text, the leftmost date is read if
there is such a date and time. The text is refused if there is none, or if it holds no date at
all. -/
theorem parse_reads_leftmost :
    (∀ f t p r z, Spells f r → f.Denotes t → Dateless p → parse (p ++ r ++ z) = .ok t) ∧
    ∀ s,
      (∀ t, parse s = .ok t ↔ ∃ f, Leftmost f s ∧ f.Denotes t) ∧
      ((∃ fault, parse s = .error fault) ↔
        Dateless s ∨ ∃ f, Leftmost f s ∧ ∀ t, ¬ f.Denotes t) := by
  refine ⟨fun f t p r z hr ht hp => ?_, fun s => ⟨fun t => parse_eq_ok_iff, exists_error_iff⟩⟩
  exact parse_eq_ok_iff.2 ⟨f, leftmost_of_dateless hr hp z, ht⟩

/-- A leap day in the digits of three scripts, behind what might be the beginning of another date
and in front of one that there is not. -/
theorem parse_behind_beginning :
    let t : DateTime := ⟨⟨2024, 2, 29, by decide, by decide, by decide, by decide, by decide,
      by decide⟩, ⟨23, 59, 58, 0, by decide, by decide, by decide, by decide⟩⟩
    let r := "２０२४年02月２９日 23時५९分58秒".toList
    Dateless "12月2024年1".toList ∧ Spells ⟨2024, 2, 29, 23, 59, 58⟩ r ∧
      parse ("12月2024年1".toList ++ r ++ "2023年02月29日 00時00分00秒".toList) = .ok t := by
  intro t r
  have hp : Dateless "12月2024年1".toList := dateless_iff.2 (by decide +kernel)
  have hr : Spells ⟨2024, 2, 29, 23, 59, 58⟩ r :=
    ⟨"２０२४".toList, "02".toList, "２９".toList, "23".toList, "५९".toList, "58".toList, by decide,
      ⟨[2, 0, 2, 4], ⟨rfl, by decide +kernel⟩, rfl⟩, ⟨[0, 2], ⟨rfl, by decide +kernel⟩, rfl⟩,
      ⟨[2, 9], ⟨rfl, by decide +kernel⟩, rfl⟩, ⟨[2, 3], ⟨rfl, by decide +kernel⟩, rfl⟩,
      ⟨[5, 9], ⟨rfl, by decide +kernel⟩, rfl⟩, [5, 8], ⟨rfl, by decide +kernel⟩, rfl⟩
  exact ⟨hp, hr, parse_reads_leftmost.1 _ t _ r _ hr rfl hp⟩

end Headline.Calendar.FeedDate
