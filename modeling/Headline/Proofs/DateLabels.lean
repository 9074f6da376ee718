import Headline.Proofs.Agreement
import Headline.Proofs.FeedDates
import Headline.Report.Results
import Mathlib.Algebra.Group.Nat.Defs
import Mathlib.Data.Char
import Mathlib.Data.List.Lex
import Mathlib.Order.Interval.Set.Defs
import Mathlib.Order.Lattice
import Mathlib.Order.Monotone.Basic

/-!
# Dates as labels

An item is shown with the date alone, and such labels compare as texts. The year stands in front and
has as many digits as it needs, so it counts as if it were written flush left in four columns
(`Text.flush`, `ofNat_append_lt_iff`). Labels therefore compare as dates do whose years stand flush
left (`label_lt_label_iff`). From year 1000 on that is the order of the dates, and a label has the
ISO form. Before that it need not be, and the label falls short: `labels_show_dates_iff` tells
exactly when.
-/

namespace Headline

namespace Text

/-! ## Numbers as texts -/

theorem append_lt_append_iff {x y : Text} (h : x.length = y.length) {u v : Text} :
    x ++ u < y ++ v ↔ x < y ∨ x = y ∧ u < v := by
  induction x generalizing y with
  | nil =>
    obtain rfl := List.length_eq_zero_iff.1 h.symm
    simp
  | cons c x ih =>
    cases y with
    | nil => cases h
    | cons d y =>
      simp only [List.cons_append, List.cons_lt_cons_iff, ih (Nat.succ.inj h), List.cons.injEq]
      grind

theorem digitChar_lt_digitChar {m n : Nat} (h : m < n) (hn : n < 10) :
    Nat.digitChar m < Nat.digitChar n := by
  show (Nat.digitChar m).toNat < (Nat.digitChar n).toNat
  rw [Nat.toNat_digitChar_of_lt_ten (h.trans hn), Nat.toNat_digitChar_of_lt_ten hn]
  exact Nat.add_lt_add_left h 48

theorem hyphen_lt_digitChar {d : Nat} (hd : d < 10) : '-' < Nat.digitChar d := by
  show '-'.toNat < (Nat.digitChar d).toNat
  rw [Nat.toNat_digitChar_of_lt_ten hd]
  exact Nat.lt_of_lt_of_le (by decide) (Nat.le_add_right 48 d)

/-- Digits of one width grow with the number, as long as it fits. -/
theorem strictMonoOn_digits (width : Nat) : StrictMonoOn (digits width) (Set.Iio (10 ^ width)) := by
  intro m _ n hn hlt
  induction width generalizing m n with
  | zero => exact absurd hlt (by rw [Nat.lt_one_iff.1 hn]; exact Nat.not_lt_zero m)
  | succ width ih =>
    have hn : n < 10 ^ width * 10 := hn
    rw [digits, digits, append_lt_append_iff (by simp)]
    -- the digits in front decide, unless they are the same
    by_cases htens : m / 10 < n / 10
    · have hm' : m / 10 < 10 ^ width := by omega
      have hn' : n / 10 < 10 ^ width := by omega
      exact .inl (ih hm' hn' htens)
    · have hsame : m / 10 = n / 10 := by omega
      have hlast : m % 10 < n % 10 := by omega
      have hdigit := digitChar_lt_digitChar hlast (Nat.mod_lt n (by decide))
      exact .inr ⟨by rw [hsame], List.cons_lt_cons_iff.2 (.inl hdigit)⟩

/-- Digits come in two parts. -/
theorem digits_add (width more n : Nat) :
    digits (width + more) n = digits width (n / 10 ^ more) ++ digits more n := by
  induction more generalizing n with
  | zero => simp [digits]
  | succ more ih =>
    rw [← Nat.add_assoc, digits, ih, digits, Nat.div_div_eq_div_mul, ← Nat.pow_succ',
      List.append_assoc]

theorem exists_digit_of_digits (more n : Nat) :
    ∃ d s, digits (more + 1) n = Nat.digitChar d :: s ∧ d < 10 := by
  refine ⟨n / 10 ^ more % 10, digits more n, ?_, Nat.mod_lt _ (by decide)⟩
  rw [Nat.add_comm, digits_add]
  rfl

/-- A number is written in as many digits as it needs. -/
theorem ofNat_eq_digits (n : Nat) : ofNat n = digits (ofNat n).length n := by
  induction n using Nat.strongRecOn with
  | ind n ih =>
    by_cases hn : n < 10
    · rw [ofNat, Nat.toDigits_of_lt_base hn]
      simp [digits, Nat.mod_eq_of_lt hn]
    · have hlt : n / 10 < n := by omega
      have hlast : ofNat n = ofNat (n / 10) ++ [Nat.digitChar (n % 10)] :=
        Nat.toDigits_of_base_le (by decide) (Nat.not_lt.1 hn)
      rw [hlast, List.length_append, List.length_singleton, digits, ← ih _ hlt]

theorem lt_pow_length_ofNat (n : Nat) : n < 10 ^ (ofNat n).length :=
  (Nat.length_toDigits_le_iff (by decide) Nat.length_toDigits_pos).1 (Nat.le_refl _)

theorem length_ofNat_le_iff {n width : Nat} (h : 0 < width) :
    (ofNat n).length ≤ width ↔ n < 10 ^ width :=
  Nat.length_toDigits_le_iff (by decide) h

/-- A number with zeros behind it, so that it fills so many columns. -/
def flush (columns n : Nat) : Nat := n * 10 ^ (columns - (ofNat n).length)

section Columns

variable {columns m n : Nat} {u v : Text}

theorem ofNat_append_lt_of_length_eq (h : (ofNat m).length = (ofNat n).length) :
    ofNat m ++ '-' :: u < ofNat n ++ '-' :: v ↔ m < n ∨ m = n ∧ u < v := by
  have hm := lt_pow_length_ofNat m
  have hn := lt_pow_length_ofNat n
  rw [h] at hm
  have hdigits := strictMonoOn_digits (ofNat n).length
  rw [ofNat_eq_digits m, ofNat_eq_digits n, h, append_lt_append_iff (by simp),
    hdigits.lt_iff_lt hm hn, hdigits.eq_iff_eq hm hn]
  simp

/-- In front of a hyphen a number counts as the first digits of a longer one. -/
theorem ofNat_append_lt_of_length_lt {more : Nat}
    (h : (ofNat n).length = (ofNat m).length + (more + 1)) :
    (ofNat m ++ '-' :: u < ofNat n ++ '-' :: v ↔ m * 10 ^ (more + 1) ≤ n) ∧
    (ofNat n ++ '-' :: v < ofNat m ++ '-' :: u ↔ n < m * 10 ^ (more + 1)) := by
  have hm := lt_pow_length_ofNat m
  have hn := lt_pow_length_ofNat n
  have hpos : 0 < 10 ^ (more + 1) := Nat.pow_pos (by decide)
  -- cut down to the length of the shorter one, the longer number compares with it digit by digit
  have hfront : n / 10 ^ (more + 1) < 10 ^ (ofNat m).length := by
    rw [Nat.div_lt_iff_lt_mul hpos, ← Nat.pow_add, ← h]
    exact hn
  have hdigits := strictMonoOn_digits (ofNat m).length
  -- behind the cut a digit stands where the shorter text has its hyphen
  obtain ⟨d, s, hd, hlt⟩ := exists_digit_of_digits more n
  have hhyphen := hyphen_lt_digitChar hlt
  rw [ofNat_eq_digits m, ofNat_eq_digits n, h, digits_add, hd, List.append_assoc,
    append_lt_append_iff (by simp), append_lt_append_iff (by simp), hdigits.lt_iff_lt hm hfront,
    hdigits.lt_iff_lt hfront hm, hdigits.eq_iff_eq hm hfront, hdigits.eq_iff_eq hfront hm,
    ← Nat.le_div_iff_mul_le hpos, ← Nat.div_lt_iff_lt_mul hpos]
  simp [List.cons_lt_cons_iff, hhyphen, lt_asymm hhyphen, ne_of_gt hhyphen, Nat.le_iff_lt_or_eq]

/-- Flush left, a number counts as one with as many digits as a longer one. -/
theorem flush_compare (more : Nat) (h : (ofNat n).length = (ofNat m).length + more)
    (hn : (ofNat n).length ≤ columns) :
    (flush columns m < flush columns n ↔ m * 10 ^ more < n) ∧
    (flush columns n < flush columns m ↔ n < m * 10 ^ more) ∧
    (flush columns m = flush columns n ↔ m * 10 ^ more = n) := by
  have hpos : 0 < 10 ^ (columns - (ofNat n).length) := Nat.pow_pos (by decide)
  have hm : flush columns m = m * 10 ^ more * 10 ^ (columns - (ofNat n).length) := by
    rw [flush, Nat.mul_assoc, ← Nat.pow_add]
    congr 2
    omega
  rw [hm, flush]
  exact ⟨Nat.mul_lt_mul_right hpos, Nat.mul_lt_mul_right hpos, Nat.mul_left_inj hpos.ne'⟩

/-- In front of a hyphen numbers compare as if they were written flush left. -/
theorem ofNat_append_lt_iff (hm : 0 < m) (hn : 0 < n) (hmle : (ofNat m).length ≤ columns)
    (hnle : (ofNat n).length ≤ columns) :
    ofNat m ++ '-' :: u < ofNat n ++ '-' :: v ↔
      flush columns m < flush columns n ∨
        flush columns m = flush columns n ∧ (m < n ∨ m = n ∧ u < v) := by
  have grows : ∀ {k : Nat} (more : Nat), 0 < k → k < k * 10 ^ (more + 1) := fun more hk =>
    (Nat.lt_mul_iff_one_lt_right hk).2 (Nat.one_lt_pow (Nat.succ_ne_zero more) (by decide))
  -- numbers of one length compare as they are, else the longer one has to be cut
  rcases Nat.lt_trichotomy (ofNat m).length (ofNat n).length with hlt | heq | hgt
  · obtain ⟨more, hmore⟩ := Nat.exists_eq_add_of_lt hlt
    obtain ⟨hless, -, hsame⟩ := flush_compare (more + 1) hmore hnle
    have hlonger := grows more hm
    rw [(ofNat_append_lt_of_length_lt hmore).1, hless, hsame, Nat.le_iff_lt_or_eq]
    exact or_congr_right ⟨fun h => ⟨h, .inl (by omega)⟩, And.left⟩
  · obtain ⟨hless, -, hsame⟩ := flush_compare 0 heq.symm hnle
    rw [ofNat_append_lt_of_length_eq heq, hless, hsame, Nat.pow_zero, Nat.mul_one]
    exact or_congr_right ⟨fun h => ⟨h.1, .inr h⟩, fun h => h.2.resolve_left (by omega)⟩
  · obtain ⟨more, hmore⟩ := Nat.exists_eq_add_of_lt hgt
    obtain ⟨-, hless, hsame⟩ := flush_compare (more + 1) hmore hmle
    have hlonger := grows more hn
    rw [(ofNat_append_lt_of_length_lt hmore).2, hless, eq_comm (a := flush columns m), hsame]
    refine ⟨.inl, fun h => h.resolve_right fun ⟨heq, h⟩ => ?_⟩
    rcases h with h | ⟨h, -⟩ <;> omega

end Columns

end Text

namespace Calendar.Date

variable {a b d : Date}

/-- The date in the ten characters of the ISO form. -/
def iso (d : Date) : Text :=
  Text.digits 4 d.year ++ '-' :: Text.digits 2 d.month ++ '-' :: Text.digits 2 d.day

/-- The year as a text compares it, flush left in four columns. -/
def flushYear (d : Date) : Nat := Text.flush 4 d.year

/-- The earlier of two years is not the greater one when both stand flush left. -/
def Aligned (a b : Date) : Prop :=
  (a.year ≤ b.year → a.flushYear ≤ b.flushYear) ∧ (b.year ≤ a.year → b.flushYear ≤ a.flushYear)

theorem aligned_comm : a.Aligned b ↔ b.Aligned a := And.comm

theorem month_lt (d : Date) : d.month < 10 ^ 2 := by
  have := d.month_le
  omega

theorem day_lt (d : Date) : d.day < 10 ^ 2 := by
  have := d.day_le
  have := daysInMonth_le d.year d.month
  omega

theorem length_year_le (d : Date) : (Text.ofNat d.year).length ≤ 4 := by
  rw [Text.length_ofNat_le_iff (by decide)]
  exact Nat.lt_succ_of_le d.year_le

theorem label_eq (d : Date) :
    d.label =
      Text.ofNat d.year ++ '-' :: (Text.digits 2 d.month ++ '-' :: Text.digits 2 d.day) := by
  simp [label]

theorem length_label (d : Date) : d.label.length = (Text.ofNat d.year).length + 6 := by
  simp [label_eq]

/-- Labels compare as dates do whose years stand flush left. -/
theorem label_lt_label_iff :
    a.label < b.label ↔ a.flushYear :: a.parts < b.flushYear :: b.parts := by
  have hdigits := Text.strictMonoOn_digits 2
  rw [label_eq, label_eq, Text.ofNat_append_lt_iff a.year_pos b.year_pos a.length_year_le
      b.length_year_le, Text.append_lt_append_iff (by simp),
    hdigits.lt_iff_lt a.month_lt b.month_lt, hdigits.eq_iff_eq a.month_lt b.month_lt]
  simp only [parts, List.cons_lt_cons_iff, and_false, or_false, lt_irrefl,
    true_and, false_or, hdigits.lt_iff_lt a.day_lt b.day_lt]
  rfl

theorem label_le_label_iff :
    a.label ≤ b.label ↔
      a.flushYear < b.flushYear ∨ a.flushYear = b.flushYear ∧ a.parts ≤ b.parts := by
  rw [← not_lt, label_lt_label_iff, List.cons_lt_cons_iff, ← not_lt (b := a.parts)]
  rcases Nat.lt_trichotomy a.flushYear b.flushYear with hlt | heq | hgt
  · simp [hlt, hlt.not_gt, hlt.ne']
  · simp [heq]
  · simp [hgt, hgt.not_gt, hgt.ne']

/-- The labels of two dates compare as the dates do just when their years are aligned. -/
theorem label_le_iff_iff_aligned :
    (a.label ≤ b.label ↔ a.dayNumber ≤ b.dayNumber) ↔ a.Aligned b := by
  rw [label_le_label_iff, dayNumber_le_iff, Aligned]
  rcases Nat.lt_trichotomy a.year b.year with hlt | heq | hgt
  · have hparts : a.parts ≤ b.parts := le_of_lt (List.cons_lt_cons_iff.2 (.inl hlt))
    simp [hparts, hlt.le, hlt.not_ge, Nat.le_iff_lt_or_eq]
  · have hflush : a.flushYear = b.flushYear := by rw [flushYear, flushYear, heq]
    simp [hflush]
  · have hparts : ¬ a.parts ≤ b.parts := not_le.2 (List.cons_lt_cons_iff.2 (.inl hgt))
    simp [hparts, hgt.le, hgt.not_ge]

theorem length_year_eq_iff : (Text.ofNat d.year).length = 4 ↔ 1000 ≤ d.year := by
  have hle := d.length_year_le
  have hthree : (Text.ofNat d.year).length ≤ 3 ↔ d.year < 10 ^ 3 :=
    Text.length_ofNat_le_iff (by decide)
  omega

theorem flushYear_eq (h : 1000 ≤ d.year) : d.flushYear = d.year := by
  rw [flushYear, Text.flush, length_year_eq_iff.2 h, Nat.sub_self, Nat.pow_zero, Nat.mul_one]

/-- From year 1000 on, years are aligned. -/
theorem aligned_of_le (ha : 1000 ≤ a.year) (hb : 1000 ≤ b.year) : a.Aligned b := by
  rw [Aligned, flushYear_eq ha, flushYear_eq hb]
  exact ⟨id, id⟩

theorem length_label_eq_iff : d.label.length = 10 ↔ 1000 ≤ d.year := by
  rw [length_label, ← length_year_eq_iff]
  omega

theorem label_eq_iso_iff : d.label = d.iso ↔ 1000 ≤ d.year := by
  constructor
  · intro h
    rw [← length_label_eq_iff, h]
    simp [iso]
  · intro h
    rw [label, iso, Text.ofNat_eq_digits, length_year_eq_iff.2 h]

end Calendar.Date

open Calendar

namespace Search

/-- A label that may stand in front of another one, if labels are to be in order. -/
def SortOrder.AllowsLabel : SortOrder → Text → Text → Prop
  | ascending, u, v => u ≤ v
  | descending, u, v => v ≤ u

theorem SortOrder.allowsLabel_iff_aligned {order : SortOrder} {s t : DateTime}
    (h : order.Allows s t) :
    order.AllowsLabel s.date.label t.date.label ↔ s.date.Aligned t.date := by
  cases order with
  | ascending =>
    have hdays : s.date.dayNumber ≤ t.date.dayNumber := DateTime.dayNumber_le_of_parts_le h
    rw [← Date.label_le_iff_iff_aligned]
    exact (iff_true_right hdays).symm
  | descending =>
    have hdays : t.date.dayNumber ≤ s.date.dayNumber := DateTime.dayNumber_le_of_parts_le h
    rw [Date.aligned_comm, ← Date.label_le_iff_iff_aligned]
    exact (iff_true_right hdays).symm

/-- Of what a search shows, the dates are in order. -/
theorem Config.pairwise_allows_of_search {c : Config} {query : Text} {items : List Item}
    {o : Outcome} (h : c.search query items = .ok o) :
    o.items.Pairwise fun a b =>
      ∀ s t, c.when? a = some s → c.when? b = some t → c.sortOrder.Allows s t := by
  obtain ⟨m, hm, -, -⟩ := compile_of_search_eq_ok h
  by_cases hleaves : ∃ item ∈ m.select items, c.LeavesCalendar item
  · obtain ⟨item, hitem, hitem'⟩ := hleaves
    rw [search_eq_error hm hitem hitem'] at h
    cases h
  · have hfound : ∀ item ∈ m.select items, ¬ c.LeavesCalendar item :=
      fun item hitem h => hleaves ⟨item, hitem, h⟩
    obtain rfl := Except.ok.inj ((search_eq_ok hm hfound).symm.trans h)
    rw [outcomeOf, visible_eq]
    exact (c.sorts_arranged _).ordered.sublist (List.take_sublist _ _)

theorem Config.when?_of_published {c : Config} (hc : c.sortField = .published) {item : Item}
    {t : DateTime} (h : FeedDate.parse item.published = .ok t) : c.when? item = some t := by
  rw [when?, hc]
  simp only [h]
  rfl

end Search

namespace Report

open Search Query

theorem dateLabel_of_parse {item : Item} {t : DateTime}
    (h : FeedDate.parse item.published = .ok t) : dateLabel item = t.date.label := by
  rw [dateLabel, h]

/-- The label of an item is its date in the ISO form, which has ten characters, from year 1000 on
only. The labels of two items compare as their dates do just when the years of the dates are
aligned, as they are from year 1000 on. So where a search that sorts by these dates shows one item
in front of another, their labels are in order just when the years are aligned. -/
theorem labels_show_dates_iff {a b : Item} {s t : DateTime}
    (ha : FeedDate.parse a.published = .ok s) (hb : FeedDate.parse b.published = .ok t) :
    (itemLine a = '[' :: s.date.label ++ "] ".toList ++ a.title ∧
      (s.date.label = s.date.iso ↔ 1000 ≤ s.date.year) ∧
      (s.date.label.length = 10 ↔ 1000 ≤ s.date.year)) ∧
    ((dateLabel a ≤ dateLabel b ↔ s.date.dayNumber ≤ t.date.dayNumber) ↔
      s.date.Aligned t.date) ∧
    (1000 ≤ s.date.year → 1000 ≤ t.date.year → s.date.Aligned t.date) ∧
    ∀ (c : Config) query items o, c.sortField = .published → c.search query items = .ok o →
      [a, b].Sublist o.items →
      (c.sortOrder.AllowsLabel (dateLabel a) (dateLabel b) ↔ s.date.Aligned t.date) := by
  rw [itemLine, dateLabel_of_parse ha, dateLabel_of_parse hb]
  refine ⟨⟨rfl, Date.label_eq_iso_iff, Date.length_label_eq_iff⟩, Date.label_le_iff_iff_aligned,
    Date.aligned_of_le, fun c query items o hfield hsearch hshown => ?_⟩
  have hordered := Config.pairwise_allows_of_search hsearch
  have hallows := List.pairwise_iff_forall_sublist.1 hordered hshown s t
    (Config.when?_of_published hfield ha) (Config.when?_of_published hfield hb)
  exact SortOrder.allowsLabel_iff_aligned hallows

/-- Two items on either side of the year 2000, and a search that shows the later one first. -/
theorem labels_of_two_items :
    let early : Item := ⟨[], "a".toList, "1999年12月31日 23時59分59秒".toList, []⟩
    let late : Item := ⟨[], "b".toList, "２０００年01月01日 00時00分00秒".toList, []⟩
    ∃ s t o, FeedDate.parse late.published = .ok s ∧ FeedDate.parse early.published = .ok t ∧
      itemLine late = "[2000-01-01] b".toList ∧ s.date.label = s.date.iso ∧
      (dateLabel late ≤ dateLabel early ↔ s.date.dayNumber ≤ t.date.dayNumber) ∧
      ({} : Config).search [] [early, late] = .ok o ∧ [late, early].Sublist o.items ∧
      dateLabel early ≤ dateLabel late := by
  intro early late
  let s : DateTime := ⟨⟨2000, 1, 1, by decide, by decide, by decide, by decide, by decide,
    by decide⟩, ⟨0, 0, 0, 0, by decide, by decide, by decide, by decide⟩⟩
  let t : DateTime := ⟨⟨1999, 12, 31, by decide, by decide, by decide, by decide, by decide,
    by decide⟩, ⟨23, 59, 59, 0, by decide, by decide, by decide, by decide⟩⟩
  have hlate : FeedDate.parse late.published = .ok s := by decide +kernel
  have hearly : FeedDate.parse early.published = .ok t := by decide +kernel
  obtain ⟨⟨hline, hiso, -⟩, hagree, haligned, hsearch⟩ := labels_show_dates_iff hlate hearly
  have hfound : ∀ item ∈ Matcher.everything.select [early, late],
      ¬ ({} : Config).LeavesCalendar item := by
    rintro item - ⟨hfield, -⟩
    cases hfield
  have hblank : normalizeQuery [] = [] := by decide +kernel
  have hok := Config.search_eq_ok (Config.compile_of_blank (c := {}) hblank) hfound
  have hwhen : ({} : Config).when? early = some t := Config.when?_of_published rfl hearly
  have hwhen' : ({} : Config).when? late = some s := Config.when?_of_published rfl hlate
  have hadmits : ({} : Config).admits early late = false := by decide +kernel
  -- the later date comes first, whatever the order of the items
  have harranged : ({} : Config).arranged [early, late] = [late, early] := by
    simp [Config.arranged, List.mergeSort, hadmits, hwhen, hwhen']
  have hshown : [late, early].Sublist
      (({} : Config).outcomeOf [] Matcher.everything [early, late]).items := by
    rw [Config.outcomeOf, harranged]
    exact .refl _
  have hyears : s.date.Aligned t.date := haligned (by decide) (by decide)
  exact ⟨s, t, _, hlate, hearly, hline.trans (by decide +kernel), hiso.2 (by decide),
    hagree.2 hyears, hok, hshown, (hsearch {} [] _ _ rfl hok hshown).2 hyears⟩

/-- Two items on either side of the year 1000. The earlier one has the greater label, which is one
character short of the ISO form. -/
theorem label_of_year_999 :
    let early : Item := ⟨[], "a".toList, "0999年12月31日 23時59分59秒".toList, []⟩
    let late : Item := ⟨[], "b".toList, "1000年01月01日 00時00分00秒".toList, []⟩
    ∃ s t, FeedDate.parse early.published = .ok s ∧ FeedDate.parse late.published = .ok t ∧
      itemLine early = "[999-12-31] a".toList ∧ (dateLabel early).length = 9 ∧
      s.date.dayNumber < t.date.dayNumber ∧ dateLabel late < dateLabel early := by
  refine ⟨⟨⟨999, 12, 31, by decide, by decide, by decide, by decide, by decide, by decide⟩,
    ⟨23, 59, 59, 0, by decide, by decide, by decide, by decide⟩⟩,
    ⟨⟨1000, 1, 1, by decide, by decide, by decide, by decide, by decide, by decide⟩,
    ⟨0, 0, 0, 0, by decide, by decide, by decide, by decide⟩⟩, ?_⟩
  decide +kernel

end Report

end Headline
