import Headline.Proofs.Instants
import Headline.Search.Outcome

/-!
# Sorted results

`Config.Sorts c found sorted` says what sorting comes to: nothing is lost or added, items with a
date stand in front of those without, dates stand in the configured order, and items with the same
date, or without one, stand as they were found. There is one such list (`Sorts.unique`), and the
sort yields it when no timestamp leads out of the calendar (`sort_eq_ok`).
-/

namespace Headline.Search

open Calendar Query

/-! ## Keys -/

/-- The date and time that an item is sorted by, if the configured field holds one. -/
def Config.when? (c : Config) (item : Item) : Option DateTime :=
  match c.sortField with
  | .published => (FeedDate.parse item.published).toOption
  | .updated => (Timestamp.parse item.updated).toOption

/-- The item is sorted by its timestamp, and that leads out of the calendar. -/
def Config.LeavesCalendar (c : Config) (item : Item) : Prop :=
  c.sortField = .updated ∧ Timestamp.parse item.updated = .error .outOfRange

/-- A date that may stand in front of another one. -/
def SortOrder.Allows : SortOrder → DateTime → DateTime → Prop
  | ascending, s, t => s.parts ≤ t.parts
  | descending, s, t => t.parts ≤ s.parts

theorem SortOrder.Allows.antisymm {order : SortOrder} {s t : DateTime} (h : order.Allows s t)
    (h' : order.Allows t s) : s = t := by
  apply DateTime.parts_injective
  cases order with
  | ascending => exact le_antisymm h h'
  | descending => exact le_antisymm h' h

theorem SortOrder.admits_instant_iff {order : SortOrder} {s t : DateTime} :
    order.admits s.instant t.instant ↔ order.Allows s t := by
  cases order with
  | ascending => exact decide_eq_true_iff.trans DateTime.instant_le_iff
  | descending => exact decide_eq_true_iff.trans DateTime.instant_le_iff

theorem SortOrder.admits_trans (order : SortOrder) {a b c : Nat} (hab : order.admits a b)
    (hbc : order.admits b c) : order.admits a c := by
  cases order with
  | ascending => simp only [admits, decide_eq_true_eq] at *; omega
  | descending => simp only [admits, decide_eq_true_eq] at *; omega

theorem SortOrder.admits_total (order : SortOrder) (a b : Nat) :
    (order.admits a b || order.admits b a) = true := by
  cases order with
  | ascending => simp only [admits, Bool.or_eq_true, decide_eq_true_eq]; omega
  | descending => simp only [admits, Bool.or_eq_true, decide_eq_true_eq]; omega

theorem SortOrder.admits_refl (order : SortOrder) (a : Nat) : order.admits a a = true := by
  simpa using order.admits_total a a

namespace Config

variable {c : Config}

theorem key?_of_leavesCalendar {item : Item} (h : c.LeavesCalendar item) :
    c.key? item = .error {} := by
  rw [key?, h.1]
  simp only [h.2]

theorem key?_eq_ok {item : Item} (h : ¬ c.LeavesCalendar item) :
    c.key? item = .ok ((c.when? item).map DateTime.instant) := by
  rw [key?, when?]
  cases hfield : c.sortField with
  | published => cases FeedDate.parse item.published <;> rfl
  | updated =>
    cases hparse : Timestamp.parse item.updated with
    | ok t => rfl
    | error fault =>
      cases fault with
      | malformed s => rfl
      | outOfRange => exact absurd ⟨hfield, hparse⟩ h

end Config

/-! ## What sorting comes to -/

/-- `sorted` is `found` as the configuration wants it sorted. -/
structure Config.Sorts (c : Config) (found sorted : List Item) : Prop where
  perm : sorted.Perm found
  dated_first : sorted.Pairwise fun a b => (c.when? b).isSome → (c.when? a).isSome
  ordered : sorted.Pairwise fun a b =>
    ∀ s t, c.when? a = some s → c.when? b = some t → c.sortOrder.Allows s t
  stable : ∀ date : Option DateTime,
    (sorted.filter fun item => c.when? item = date) = found.filter fun item => c.when? item = date

section Keys

variable {α κ : Type} [DecidableEq κ] {key : α → κ} {l l' : List α}

theorem mem_iff_of_filter
    (h : ∀ k, (l.filter fun a => key a = k) = l'.filter fun a => key a = k) (a : α) :
    a ∈ l ↔ a ∈ l' := by
  have hmem := congrArg (a ∈ ·) (h (key a))
  simpa using hmem

/-- Lists in the order of their keys are the same when they have the same elements of each key, in
the same order. -/
theorem eq_of_pairwise_of_filter {le : κ → κ → Prop}
    (antisymm : ∀ {j k}, le j k → le k j → j = k)
    (hl : l.Pairwise fun a b => le (key a) (key b))
    (hl' : l'.Pairwise fun a b => le (key a) (key b))
    (h : ∀ k, (l.filter fun a => key a = k) = l'.filter fun a => key a = k) : l = l' := by
  induction l generalizing l' with
  | nil =>
    cases l' with
    | nil => rfl
    | cons b l' => exact absurd ((mem_iff_of_filter h b).2 (List.mem_cons_self ..)) List.not_mem_nil
  | cons a l ih =>
    cases l' with
    | nil => exact absurd ((mem_iff_of_filter h a).1 (List.mem_cons_self ..)) List.not_mem_nil
    | cons b l' =>
      obtain ⟨ha, htail⟩ := List.pairwise_cons.1 hl
      obtain ⟨hb, htail'⟩ := List.pairwise_cons.1 hl'
      have hab : a = b := by
        rcases List.mem_cons.1 ((mem_iff_of_filter h a).1 (List.mem_cons_self ..)) with hab | ha'
        · exact hab
        rcases List.mem_cons.1 ((mem_iff_of_filter h b).2 (List.mem_cons_self ..)) with hba | hb'
        · exact hba.symm
        -- each stands behind the other one, so they have one key, and both come first with it
        have hkey := antisymm (ha b hb') (hb a ha')
        have hfirst := h (key a)
        rw [List.filter_cons_of_pos (by simp), List.filter_cons_of_pos (by simp [hkey])] at hfirst
        exact (List.cons.inj hfirst).1
      subst hab
      refine congrArg (a :: ·) (ih htail htail' fun k => ?_)
      have hk := h k
      by_cases hak : key a = k
      · rw [List.filter_cons_of_pos (by simp [hak]), List.filter_cons_of_pos (by simp [hak])] at hk
        exact (List.cons.inj hk).2
      · rwa [List.filter_cons_of_neg (by simp [hak]), List.filter_cons_of_neg (by simp [hak])] at hk

end Keys

/-- Of two keys the first may stand in front: dates in their order, and in front of no date. -/
def SortOrder.Precedes (order : SortOrder) : Option DateTime → Option DateTime → Prop
  | some s, some t => order.Allows s t
  | none, some _ => False
  | _, none => True

theorem SortOrder.Precedes.antisymm {order : SortOrder} {j k : Option DateTime}
    (h : order.Precedes j k) (h' : order.Precedes k j) : j = k := by
  cases j with
  | none => cases k with
    | none => rfl
    | some t => exact h.elim
  | some s => cases k with
    | none => exact h'.elim
    | some t => exact congrArg some (Allows.antisymm h h')

namespace Config

variable {c : Config}

theorem Sorts.pairwise_precedes {found sorted : List Item} (h : c.Sorts found sorted) :
    sorted.Pairwise fun a b => c.sortOrder.Precedes (c.when? a) (c.when? b) := by
  refine (h.dated_first.and h.ordered).imp fun {a b} hab => ?_
  obtain ⟨hdated, hordered⟩ := hab
  cases ha : c.when? a with
  | none =>
    cases hb : c.when? b with
    | none => trivial
    | some t =>
      rw [ha, hb] at hdated
      exact absurd (hdated rfl) (by simp)
  | some s =>
    cases hb : c.when? b with
    | none => trivial
    | some t => exact hordered s t ha hb

/-- There is one way to sort. -/
theorem Sorts.unique {found sorted sorted' : List Item} (h : c.Sorts found sorted)
    (h' : c.Sorts found sorted') : sorted = sorted' :=
  eq_of_pairwise_of_filter SortOrder.Precedes.antisymm h.pairwise_precedes h'.pairwise_precedes
    fun date => (h.stable date).trans (h'.stable date).symm

/-! ## The sort -/

theorem mapM_eq_ok {α β ε : Type} {f : α → Except ε β} {g : α → β} {xs : List α}
    (h : ∀ x ∈ xs, f x = .ok (g x)) : xs.mapM f = .ok (xs.map g) := by
  induction xs with
  | nil => rfl
  | cons x xs ih =>
    obtain ⟨hx, hxs⟩ := List.forall_mem_cons.1 h
    rw [List.mapM_cons, hx, ih hxs]
    rfl

/-- The instant to sort an item by, which is of no account without a date. -/
def instantOf (c : Config) (item : Item) : Nat := ((c.when? item).map DateTime.instant).getD 0

/-- Whether the sort may place `a` in front of `b`, when both have a date. -/
def admits (c : Config) (a b : Item) : Bool := c.sortOrder.admits (c.instantOf a) (c.instantOf b)

theorem admits_trans (c : Config) (x y z : Item) (h : c.admits x y) (h' : c.admits y z) :
    c.admits x z :=
  c.sortOrder.admits_trans h h'

theorem admits_total (c : Config) (x y : Item) : (c.admits x y || c.admits y x) = true :=
  c.sortOrder.admits_total _ _

/-- The items with a date in its order, as found where the dates agree, and then the others. -/
def arranged (c : Config) (found : List Item) : List Item :=
  (found.filter fun item => (c.when? item).isSome).mergeSort c.admits
    ++ found.filter fun item => (c.when? item).isNone

/-- An item with its key. -/
def keyed (c : Config) (item : Item) : Option Nat × Item :=
  ((c.when? item).map DateTime.instant, item)

theorem filterMap_keyed (c : Config) (found : List Item) :
    ((found.map c.keyed).filterMap fun p => p.1.map fun key => (key, p.2)) =
      (found.filter fun item => (c.when? item).isSome).map fun item =>
        (c.instantOf item, item) := by
  induction found with
  | nil => rfl
  | cons item found ih =>
    rw [List.map_cons, List.filterMap_cons, ih]
    cases hwhen : c.when? item with
    | none =>
      rw [keyed, hwhen, List.filter_cons_of_neg (by simp [hwhen])]
      rfl
    | some t =>
      have hkey : c.instantOf item = t.instant := by
        rw [instantOf, hwhen, Option.map_some, Option.getD_some]
      rw [keyed, hwhen, Option.map_some, Option.map_some, List.filter_cons_of_pos (by simp [hwhen]),
        List.map_cons, hkey]

theorem arrange_keyed (c : Config) (found : List Item) :
    arrange c.sortOrder (found.map c.keyed) = c.arranged found := by
  have hsort : ((found.filter fun item => (c.when? item).isSome).map
      fun item => (c.instantOf item, item)).mergeSort (fun a b => c.sortOrder.admits a.1 b.1) =
        ((found.filter fun item => (c.when? item).isSome).mergeSort c.admits).map
          fun item => (c.instantOf item, item) := by
    rw [List.map_mergeSort]
    exact fun _ _ _ _ => rfl
  have hundated : ((found.map c.keyed).filter fun p => p.1.isNone).map Prod.snd =
      found.filter fun item => (c.when? item).isNone := by
    rw [List.filter_map, List.map_map]
    simp [keyed, Function.comp_def]
  rw [arrange, filterMap_keyed, hsort, hundated, List.map_map, arranged]
  simp [Function.comp_def]

theorem sort_eq_ok {found : List Item} (h : ∀ item ∈ found, ¬ c.LeavesCalendar item) :
    c.sort found = .ok (c.arranged found) := by
  have hkeys : ∀ item ∈ found, (·, item) <$> c.key? item = .ok (c.keyed item) := by
    intro item hitem
    rw [key?_eq_ok (h item hitem)]
    rfl
  rw [sort, mapM_eq_ok hkeys, ← arrange_keyed]
  rfl

theorem sort_eq_error {found : List Item} {item : Item} (hitem : item ∈ found)
    (h : c.LeavesCalendar item) : c.sort found = .error {} := by
  have hkeys : (found.mapM fun item => (·, item) <$> c.key? item) = .error {} := by
    induction found with
    | nil => cases hitem
    | cons first found ih =>
      rw [List.mapM_cons]
      -- another item further in front may leave the calendar as well, which is the same error
      cases hfirst : c.key? first with
      | error => rfl
      | ok key =>
        rcases List.mem_cons.1 hitem with rfl | hitem
        · rw [key?_of_leavesCalendar h] at hfirst
          cases hfirst
        · rw [ih hitem]
          rfl
  rw [sort, hkeys]
  rfl

/-! ## The sorted list -/

theorem admits_iff {a b : Item} {s t : DateTime} (ha : c.when? a = some s)
    (hb : c.when? b = some t) : c.admits a b ↔ c.sortOrder.Allows s t := by
  rw [admits, instantOf, instantOf, ha, hb, Option.map_some, Option.map_some, Option.getD_some,
    Option.getD_some]
  exact SortOrder.admits_instant_iff

theorem isSome_of_mem_mergeSort {found : List Item} {item : Item}
    (h : item ∈ (found.filter fun item => (c.when? item).isSome).mergeSort c.admits) :
    (c.when? item).isSome := by
  rw [List.mem_mergeSort] at h
  exact (List.mem_filter.1 h).2

theorem isNone_of_mem_filter {found : List Item} {item : Item}
    (h : item ∈ found.filter fun item => (c.when? item).isNone) : c.when? item = none :=
  Option.isNone_iff_eq_none.1 (List.mem_filter.1 h).2

theorem perm_arranged (c : Config) (found : List Item) : (c.arranged found).Perm found := by
  have hsplit := List.filter_append_perm (fun item => (c.when? item).isSome) found
  simp only [Option.not_isSome] at hsplit
  exact ((List.mergeSort_perm _ _).append_right _).trans hsplit

theorem pairwise_admits_mergeSort (c : Config) (items : List Item) :
    (items.mergeSort c.admits).Pairwise fun a b => c.admits a b = true :=
  List.pairwise_mergeSort c.admits_trans c.admits_total items

/-- The items of one date, and those without a date, stand in what the sort yields as they were
found. -/
theorem filter_sublist_arranged (c : Config) (found : List Item) (date : Option DateTime) :
    (found.filter fun item => c.when? item = date).Sublist (c.arranged found) := by
  cases date with
  | none =>
    have hundated : (found.filter fun item => c.when? item = none) =
        found.filter fun item => (c.when? item).isNone :=
      List.filter_congr fun item _ => by cases c.when? item <;> rfl
    rw [hundated]
    exact List.sublist_append_right _ _
  | some t =>
    have hdated : (found.filter fun item => c.when? item = some t).Sublist
        (found.filter fun item => (c.when? item).isSome) := by
      have hboth : (found.filter fun item => c.when? item = some t) =
          (found.filter fun item => (c.when? item).isSome).filter
            fun item => c.when? item = some t := by
        rw [List.filter_filter]
        refine List.filter_congr fun item _ => ?_
        cases hwhen : c.when? item <;> simp
      rw [hboth]
      exact List.filter_sublist
    -- items of one date are in order as they stand, so a stable sort keeps them so
    have hties : (found.filter fun item => c.when? item = some t).Pairwise
        fun a b => c.admits a b = true := by
      refine List.pairwise_of_forall_mem_list fun a ha b hb => ?_
      have ha : c.when? a = some t := by simpa using (List.mem_filter.1 ha).2
      have hb : c.when? b = some t := by simpa using (List.mem_filter.1 hb).2
      rw [admits, instantOf, instantOf, ha, hb]
      exact c.sortOrder.admits_refl _
    have hsorted := List.sublist_mergeSort c.admits_trans c.admits_total hties hdated
    exact hsorted.trans (List.sublist_append_left _ _)

theorem filter_arranged (c : Config) (found : List Item) (date : Option DateTime) :
    ((c.arranged found).filter fun item => c.when? item = date) =
      found.filter fun item => c.when? item = date := by
  have hsub := (filter_sublist_arranged c found date).filter fun item => c.when? item = date
  have hlength := ((perm_arranged c found).filter fun item => c.when? item = date).length_eq
  rw [List.filter_filter] at hsub
  simp only [Bool.and_self] at hsub
  exact (hsub.eq_of_length hlength.symm).symm

theorem sorts_arranged (c : Config) (found : List Item) : c.Sorts found (c.arranged found) where
  perm := perm_arranged c found
  stable := filter_arranged c found
  dated_first := by
    refine List.pairwise_append.2 ⟨?_, ?_, fun a ha b _ _ => isSome_of_mem_mergeSort ha⟩
    · exact List.pairwise_of_forall_mem_list fun a ha b _ _ => isSome_of_mem_mergeSort ha
    · refine List.pairwise_of_forall_mem_list fun a _ b hb hdated => ?_
      rw [isNone_of_mem_filter hb] at hdated
      cases hdated
  ordered := by
    refine List.pairwise_append.2 ⟨?_, ?_, fun a _ b hb s t _ hwhen => ?_⟩
    · exact (pairwise_admits_mergeSort c _).imp fun hab s t ha hb => (admits_iff ha hb).1 hab
    · refine List.pairwise_of_forall_mem_list fun a _ b hb s t _ hwhen => ?_
      rw [isNone_of_mem_filter hb] at hwhen
      cases hwhen
    · rw [isNone_of_mem_filter hb] at hwhen
      cases hwhen

/-! ## The search -/

/-- What a search shows of the items that it found. -/
def outcomeOf (c : Config) (query : Text) (m : Matcher) (found : List Item) : Outcome where
  query
  items := c.visible (c.arranged found)
  total := found.length
  fallbackUsed := m.isFallback
  fault := m.fault?.map Fault.diagnosis

theorem search_eq_ok {query : Text} {m : Matcher} (hm : c.compile query = .ok m)
    {items : List Item} (h : ∀ item ∈ m.select items, ¬ c.LeavesCalendar item) :
    c.search query items = .ok (c.outcomeOf query m (m.select items)) := by
  rw [search, hm]
  show ((c.sort (m.select items)).mapError _ >>= _) = _
  rw [sort_eq_ok h]
  rfl

theorem search_eq_error {query : Text} {m : Matcher} (hm : c.compile query = .ok m)
    {items : List Item} {item : Item} (hitem : item ∈ m.select items) (h : c.LeavesCalendar item) :
    c.search query items = .error .outOfCalendar := by
  rw [search, hm]
  show ((c.sort (m.select items)).mapError _ >>= _) = _
  rw [sort_eq_error hitem h]
  rfl

/-- The configuration with another limit. -/
def withLimit (c : Config) (limit : Option Nat) (h : ∀ n ∈ limit, 0 < n) : Config :=
  { c with limit, limit_pos := h }

/-- The items that are shown are the first ones, as many as the limit allows. -/
theorem visible_eq (c : Config) (items : List Item) :
    c.visible items = items.take ((c.limit.map fun n => min n items.length).getD items.length) := by
  rw [visible]
  cases c.limit with
  | none => simp
  | some n => simp

theorem visible_prefix_withLimit (c : Config) {limit : Option Nat} (hpos : ∀ n ∈ limit, 0 < n)
    (h : ∀ n' ∈ limit, ∃ n ∈ c.limit, n ≤ n') (items : List Item) :
    c.visible items <+: (c.withLimit limit hpos).visible items := by
  cases limit with
  | none =>
    rw [visible_eq]
    exact List.take_prefix _ _
  | some n' =>
    obtain ⟨n, hn, hle⟩ := h n' rfl
    rw [visible, hn]
    exact List.take_prefix_take_left hle

end Config

/-- A search counts the items whose titles match, sorts them and shows the first ones, as many as
the limit allows. The sorted list is the only one that there is, and a wider limit, or none, only
shows more of it. -/
theorem search_sorts_matches {c : Config} {query : Text} {m : Matcher} {items : List Item}
    (hm : c.compile query = .ok m)
    (hdates : ∀ item ∈ items, m.accepts (normalize item.title) → ¬ c.LeavesCalendar item) :
    let found := items.filter fun item => m.accepts (normalize item.title)
    ∃ outcome sorted, c.search query items = .ok outcome ∧
      c.Sorts found sorted ∧ (∀ sorted', c.Sorts found sorted' → sorted' = sorted) ∧
      outcome.total = found.length ∧
      outcome.items = sorted.take ((c.limit.map fun n => min n found.length).getD found.length) ∧
      ∀ limit hpos, (∀ n' ∈ limit, ∃ n ∈ c.limit, n ≤ n') →
        ∃ outcome', (c.withLimit limit hpos).search query items = .ok outcome' ∧
          outcome.items <+: outcome'.items := by
  intro found
  have hfound : ∀ item ∈ m.select items, ¬ c.LeavesCalendar item := by
    intro item hitem
    obtain ⟨hitem, haccepts⟩ := List.mem_filter.1 hitem
    exact hdates item hitem haccepts
  have hsorts := c.sorts_arranged found
  refine ⟨c.outcomeOf query m found, c.arranged found, Config.search_eq_ok hm hfound, hsorts,
    fun sorted' h => h.unique hsorts, rfl, ?_, fun limit hpos hwider => ?_⟩
  · rw [← hsorts.perm.length_eq]
    exact c.visible_eq _
  · have hm' : (c.withLimit limit hpos).compile query = .ok m := hm
    exact ⟨_, Config.search_eq_ok hm' hfound, c.visible_prefix_withLimit hpos hwider _⟩

/-- Of three matches, two with one date and one without, two are shown. -/
theorem search_shows_two_of_three :
    let date := "2024年01月31日 15時04分05秒".toList
    let items : List Item :=
      [⟨[], "Ab".toList, date, []⟩, ⟨[], "xＡＢ".toList, [], []⟩, ⟨[], "c".toList, date, []⟩,
        ⟨[], "a b".toList, date, []⟩]
    ∃ outcome, ({ limit := some 2 } : Config).search "AB".toList items = .ok outcome ∧
      outcome.total = 3 ∧ outcome.items.length = 2 := by
  intro date items
  have hm : ({ limit := some 2 } : Config).compile "AB".toList =
      .ok (.tree (.word "ab".toList)) := by
    have hnormal : normalizeQuery "AB".toList = "ab".toList := by decide +kernel
    have htree : Query.compile "ab".toList = .ok (.word "ab".toList) := by decide +kernel
    rw [Config.compile, hnormal, htree]
    rfl
  have hdates : ∀ item ∈ items, (Matcher.tree (.word "ab".toList)).accepts (normalize item.title) →
      ¬ ({ limit := some 2 } : Config).LeavesCalendar item := by
    rintro item - - ⟨hfield, -⟩
    cases hfield
  obtain ⟨outcome, sorted, hsearch, hsorts, -, htotal, hitems, -⟩ := search_sorts_matches hm hdates
  have hfound : (items.filter fun item =>
      (Matcher.tree (.word "ab".toList)).accepts (normalize item.title)).length = 3 := by
    decide +kernel
  have hsorted := hsorts.perm.length_eq
  rw [hfound] at htotal hitems hsorted
  refine ⟨outcome, hsearch, htotal, ?_⟩
  rw [hitems, List.length_take, hsorted]
  rfl

end Headline.Search
