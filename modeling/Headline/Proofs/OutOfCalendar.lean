import Headline.Proofs.Matching
import Headline.Proofs.Sorting

/-!
# Timestamps out of the calendar

A text that is no timestamp is malformed, and its item goes last. A timestamp whose offset leads
before year 1 or behind year 9999 is not malformed: it has a fault of its own
(`parse_eq_outOfRange_iff`), and one match with such a timestamp leaves a search that sorts by
timestamps without an outcome (`search_fails_iff_leavesCalendar`).
-/

namespace Headline.Calendar.Timestamp

/-- The date and time that a text writes down, and the offset that it states in microseconds. -/
def written? (s : Text) : Option (DateTime × Int) :=
  readOctets (expandZulu (Text.trim s)).toOctets

theorem parse_of_written?_eq_none {s : Text} (h : written? s = none) :
    parse s = .error (.malformed s) := by
  rw [written?] at h
  rw [parse, h]

theorem parse_of_written?_eq_some {s : Text} {written : DateTime} {offset : Int}
    (h : written? s = some (written, offset)) :
    parse s = (DateTime.ofInstant? (written.instant - offset)).elim (.error .outOfRange) .ok := by
  rw [written?] at h
  rw [parse, h]
  simp only
  cases DateTime.ofInstant? (written.instant - offset) <;> rfl

/-- A timestamp is out of range when it is written down as one, and no date and time of the
calendar is its instant. -/
theorem parse_eq_outOfRange_iff {s : Text} :
    parse s = .error .outOfRange ↔ ∃ written offset, written? s = some (written, offset) ∧
      ∀ t : DateTime, (t.instant : Int) ≠ written.instant - offset := by
  cases hs : written? s with
  | none => simp [parse_of_written?_eq_none hs]
  | some p =>
    obtain ⟨written, offset⟩ := p
    have hnone := @DateTime.ofInstant?_eq_none_iff (written.instant - offset)
    rw [parse_of_written?_eq_some hs]
    constructor
    · intro h
      refine ⟨written, offset, rfl, hnone.1 ?_⟩
      cases hinstant : DateTime.ofInstant? (written.instant - offset) with
      | none => rfl
      | some t =>
        rw [hinstant] at h
        cases h
    · rintro ⟨written', offset', heq, h⟩
      cases heq
      rw [hnone.2 h]
      rfl

/-- A text has an instant, is malformed, or is out of range. -/
theorem parse_cases (s : Text) :
    (∃ t, parse s = .ok t) ∨ parse s = .error (.malformed s) ∨ parse s = .error .outOfRange := by
  cases hs : written? s with
  | none => exact .inr (.inl (parse_of_written?_eq_none hs))
  | some p =>
    rw [parse_of_written?_eq_some hs]
    cases DateTime.ofInstant? (p.1.instant - p.2) with
    | none => exact .inr (.inr rfl)
    | some t => exact .inl ⟨t, rfl⟩

end Headline.Calendar.Timestamp

namespace Headline.Search

open Calendar Query

namespace Config

variable {c : Config}

theorem dated_first_visible (c : Config) (query : Text) (m : Matcher) (found : List Item) :
    (c.outcomeOf query m found).items.Pairwise
      fun a b => (c.when? b).isSome → (c.when? a).isSome := by
  rw [outcomeOf, visible_eq]
  exact (c.sorts_arranged found).dated_first.sublist (List.take_sublist _ _)

end Config

/-- A search that falls back on substrings has an outcome, with the matches without a usable date
behind the others, just when it meets no timestamp that leads out of the calendar among those it
sorts by. Such a timestamp is neither read nor malformed: it is written down, but no date and time
is its instant. -/
theorem search_fails_iff_leavesCalendar {c : Config} (hc : c.fallback = .substring) (query : Text)
    (items : List Item) :
    (∃ m, c.compile query = .ok m ∧
      let found := items.filter fun item => m.accepts (normalize item.title)
      (c.search query items = .error .outOfCalendar ↔ ∃ item ∈ found, c.LeavesCalendar item) ∧
      ((∃ outcome, c.search query items = .ok outcome) ↔ ∀ item ∈ found, ¬ c.LeavesCalendar item) ∧
      ∀ outcome, c.search query items = .ok outcome →
        outcome.items.Pairwise fun a b => (c.when? b).isSome → (c.when? a).isSome) ∧
    ∀ s,
      ((∃ t, Timestamp.parse s = .ok t) ∨ Timestamp.parse s = .error (.malformed s) ∨
        Timestamp.parse s = .error .outOfRange) ∧
      (Timestamp.parse s = .error .outOfRange ↔ ∃ written offset,
        Timestamp.written? s = some (written, offset) ∧
          ∀ t : DateTime, (t.instant : Int) ≠ written.instant - offset) := by
  -- with the fallback every query compiles
  obtain ⟨m, hm⟩ : ∃ m, c.compile query = .ok m := by
    rcases Config.compile_cases hc query with hm | ⟨t, -, hm⟩ | ⟨fault, hm⟩ <;> exact ⟨_, hm⟩
  refine ⟨⟨m, hm, ?_⟩, fun s => ⟨Timestamp.parse_cases s, Timestamp.parse_eq_outOfRange_iff⟩⟩
  intro found
  by_cases hleaves : ∃ item ∈ found, c.LeavesCalendar item
  · obtain ⟨item, hitem, hitem'⟩ := hleaves
    have hsearch := Config.search_eq_error hm hitem hitem'
    refine ⟨⟨fun _ => ⟨item, hitem, hitem'⟩, fun _ => hsearch⟩,
      ⟨fun ⟨outcome, h⟩ => ?_, fun h => absurd hitem' (h item hitem)⟩, fun outcome h => ?_⟩
    · rw [hsearch] at h
      cases h
    · rw [hsearch] at h
      cases h
  · have hfound : ∀ item ∈ found, ¬ c.LeavesCalendar item :=
      fun item hitem h => hleaves ⟨item, hitem, h⟩
    have hsearch := Config.search_eq_ok hm hfound
    refine ⟨⟨fun h => ?_, fun h => absurd h hleaves⟩, ⟨fun _ => hfound, fun _ => ⟨_, hsearch⟩⟩,
      fun outcome h => ?_⟩
    · rw [hsearch] at h
      cases h
    · obtain rfl := Except.ok.inj (hsearch.symm.trans h)
      exact c.dated_first_visible query m _

/-- A text that is no timestamp does not keep a search from its outcome. -/
theorem search_with_malformed_timestamp :
    let items : List Item :=
      [⟨[], "a".toList, [], "soon".toList⟩, ⟨[], "b".toList, [], "2024-01-31T15:04:05Z".toList⟩]
    let c : Config := { sortField := .updated }
    ∃ outcome, c.search [] items = .ok outcome ∧
      outcome.items.Pairwise fun a b => (c.when? b).isSome → (c.when? a).isSome := by
  intro items c
  -- neither text is the date of an instant outside of the calendar
  have hfirst : Timestamp.parse "soon".toList ≠ .error .outOfRange := by decide +kernel
  have hsecond : Timestamp.parse "2024-01-31T15:04:05Z".toList ≠ .error .outOfRange := by
    decide +kernel
  obtain ⟨⟨m, -, -, hiff, hdated⟩, -⟩ := search_fails_iff_leavesCalendar (c := c) rfl [] items
  have hfound : ∀ item ∈ items.filter fun item => m.accepts (normalize item.title),
      ¬ c.LeavesCalendar item := by
    rintro item hitem ⟨-, hparse⟩
    have hitem := (List.mem_filter.1 hitem).1
    simp only [items, List.mem_cons, List.not_mem_nil, or_false] at hitem
    rcases hitem with rfl | rfl
    · exact hfirst hparse
    · exact hsecond hparse
  obtain ⟨outcome, hsearch⟩ := hiff.2 hfound
  exact ⟨outcome, hsearch, hdated outcome hsearch⟩

/-- Midnight of the first day of year 1, fourteen hours ahead of universal time, is no instant of
the calendar. A search that matches it has no outcome, though it would fall back on substrings. -/
theorem search_of_timestamp_before_year_one :
    let item : Item := ⟨[], "a".toList, [], "0001-01-01T00:00:00+14:00".toList⟩
    Timestamp.parse item.updated = .error .outOfRange ∧
      ({ sortField := .updated } : Config).search "a".toList [item] = .error .outOfCalendar := by
  decide +kernel

end Headline.Search
