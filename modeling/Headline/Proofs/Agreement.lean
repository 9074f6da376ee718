import Mathlib.Data.List.Infix
import Headline.Proofs.Caret
import Headline.Proofs.Matching
import Headline.Proofs.Printing
import Headline.Proofs.Readability
import Headline.Proofs.Sorting

/-!
# The fallback, the strict search and the check agree

Three commands compile a query: a search with the fallback, a strict search, and the check that
shows how a query is understood. They differ on rejected queries alone: the strict search fails, the
check shows the same fault, and the fallback reports it and searches for the query as it stands.
-/

namespace Headline

open Query

namespace Search.Config

variable {c : Config} {query : Text} {items : List Item} {m : Matcher} {f : Fault}

/-- The configuration with another fallback. -/
def withFallback (c : Config) (mode : Fallback) : Config := { c with fallback := mode }

/-! ## Rejected queries -/

theorem compile_strict_of_error (hne : normalizeQuery query ≠ [])
    (h : Query.compile (normalizeQuery query) = .error f) :
    (c.withFallback .strict).compile query = .error f := by
  rw [compile, h]
  exact if_neg (by simpa using hne)

/-- The strict search alone rejects a query: if it holds more than blanks and has no tree. -/
theorem compile_strict_eq_error_iff :
    (c.withFallback .strict).compile query = .error f ↔
      normalizeQuery query ≠ [] ∧ Query.compile (normalizeQuery query) = .error f := by
  constructor
  · intro h
    by_cases hblank : normalizeQuery query = []
    · rw [compile_of_blank hblank] at h
      cases h
    · cases hparse : Query.compile (normalizeQuery query) with
      | ok t =>
        rw [compile_of_ok hblank hparse] at h
        cases h
      | error f' =>
        rw [compile_strict_of_error hblank hparse] at h
        cases h
        exact ⟨hblank, rfl⟩
  · exact fun ⟨hne, h⟩ => compile_strict_of_error hne h

/-- What a strict search makes of a query, every search does, and no fallback is in use. -/
theorem compile_of_compile_strict (h : (c.withFallback .strict).compile query = .ok m)
    (mode : Fallback) : (c.withFallback mode).compile query = .ok m ∧ m.fault? = none := by
  by_cases hblank : normalizeQuery query = []
  · obtain rfl := Except.ok.inj ((compile_of_blank hblank).symm.trans h)
    exact ⟨compile_of_blank hblank, rfl⟩
  · cases hparse : Query.compile (normalizeQuery query) with
    | ok t =>
      obtain rfl := Except.ok.inj ((compile_of_ok hblank hparse).symm.trans h)
      exact ⟨compile_of_ok hblank hparse, rfl⟩
    | error f =>
      rw [compile_strict_of_error hblank hparse] at h
      cases h

/-! ## Searches -/

/-- The outcome counts these items, and shows them sorted, as far as the limit allows. -/
def Shows (c : Config) (found : List Item) (o : Outcome) : Prop :=
  o.total = found.length ∧ ∃ sorted, c.Sorts found sorted ∧ o.items = c.visible sorted

/-- A search only fails to compile when it is rejected. -/
theorem search_eq_rejected_iff :
    c.search query items = .error (.rejected f) ↔ c.compile query = .error f := by
  rw [search]
  cases c.compile query with
  | error f' => simp [Except.mapError, bind, Except.bind]
  | ok m =>
    simp only [Except.mapError, bind, Except.bind]
    cases c.sort (m.select items) <;> simp [pure, Except.pure]

/-- An outcome carries the fault of the matcher that it comes from. -/
theorem compile_of_search_eq_ok {o : Outcome} (h : c.search query items = .ok o) :
    ∃ m, c.compile query = .ok m ∧ o.fallbackUsed = m.fault?.isSome ∧
      o.fault = m.fault?.map Fault.diagnosis := by
  rw [search] at h
  cases hm : c.compile query with
  | error f =>
    rw [hm] at h
    cases h
  | ok m =>
    rw [hm] at h
    change ((c.sort (m.select items)).mapError _ >>= _) = _ at h
    cases hsort : c.sort (m.select items) with
    | error e =>
      rw [hsort] at h
      cases h
    | ok sorted =>
      rw [hsort] at h
      cases h
      exact ⟨m, rfl, rfl, rfl⟩

/-- Searches that compile a query alike yield the same. -/
theorem search_congr {mode mode' : Fallback}
    (h : (c.withFallback mode).compile query = (c.withFallback mode').compile query) :
    (c.withFallback mode).search query items = (c.withFallback mode').search query items := by
  rw [search, search, h]
  rfl

/-- The outcome of a strict search is that of a search with the fallback, which is not in use. -/
theorem fallback_of_strict {o : Outcome}
    (h : (c.withFallback .strict).search query items = .ok o) :
    (c.withFallback .substring).search query items = .ok o ∧ o.fallbackUsed = false ∧
      o.fault = none := by
  obtain ⟨m, hm, hused, hfault⟩ := compile_of_search_eq_ok h
  obtain ⟨hm', hnone⟩ := compile_of_compile_strict hm .substring
  rw [hnone] at hused hfault
  exact ⟨(search_congr (hm'.trans hm.symm)).trans h, hused, hfault⟩

theorem fallbackUsed_iff {o : Outcome} (h : c.search query items = .ok o) :
    o.fallbackUsed = true ↔ o.fault ≠ none := by
  obtain ⟨m, -, hused, hfault⟩ := compile_of_search_eq_ok h
  rw [hused, hfault]
  cases m.fault? <;> simp

/-- Inside the calendar, a search shows what its matcher selects, under every fallback. -/
theorem search_shows {mode : Fallback} (hm : (c.withFallback mode).compile query = .ok m)
    (hdates : ∀ item ∈ items, ¬ c.LeavesCalendar item) :
    ∃ o, (c.withFallback mode).search query items = .ok o ∧ o.fallbackUsed = m.isFallback ∧
      o.fault = m.fault?.map Fault.diagnosis ∧ c.Shows (m.select items) o := by
  have hfound : ∀ item ∈ m.select items, ¬ (c.withFallback mode).LeavesCalendar item :=
    fun _ hitem => hdates _ (List.mem_filter.1 hitem).1
  exact ⟨_, search_eq_ok hm hfound, rfl, rfl, rfl, _, c.sorts_arranged _, rfl⟩

/-- A substring matcher selects the titles whose normal form contains the needle. -/
theorem select_substring (needle : Text) (f : Fault) (items : List Item) :
    (Matcher.substring needle f).select items =
      items.filter fun item => needle <:+: normalize item.title :=
  List.filter_congr fun _ _ =>
    Bool.eq_iff_iff.2 (Text.occursIn_iff.trans decide_eq_true_iff.symm)

/-- A query that has no tree is a substring to search for, and not the empty one. -/
theorem fallback_of_rejected (hdates : ∀ item ∈ items, ¬ c.LeavesCalendar item)
    (h : (c.withFallback .strict).search query items = .error (.rejected f)) :
    normalize query ≠ [] ∧
      ∃ o, (c.withFallback .substring).search query items = .ok o ∧ o.fallbackUsed = true ∧
        o.fault = some f.diagnosis ∧
        c.Shows (items.filter fun item => normalize query <:+: normalize item.title) o := by
  obtain ⟨hne, hparse⟩ := compile_strict_eq_error_iff.1 (search_eq_rejected_iff.1 h)
  constructor
  · rwa [ne_eq, normalize_eq_nil_iff, ← normalizeQuery_eq_nil_iff]
  · have hm : (c.withFallback .substring).compile query = .ok (.substring (normalize query) f) :=
      compile_of_error rfl hne hparse
    rw [← select_substring _ f]
    exact search_shows hm hdates

/-- A blank query finds all items. -/
theorem search_of_blank (hblank : ∀ char ∈ query, isBlank char)
    (hdates : ∀ item ∈ items, ¬ c.LeavesCalendar item) (mode : Fallback) :
    ∃ o, (c.withFallback mode).search query items = .ok o ∧ c.Shows items o := by
  have hm : (c.withFallback mode).compile query = .ok .everything :=
    compile_of_blank (normalizeQuery_eq_nil_iff.2 hblank)
  obtain ⟨o, hsearch, -, -, hshows⟩ := search_shows hm hdates
  have hall : Matcher.everything.select items = items := List.filter_eq_self.2 fun _ _ => rfl
  rw [hall] at hshows
  exact ⟨o, hsearch, hshows⟩

end Search.Config

namespace CommandLine

open Search

variable {query : Text}

/-! ## The check -/

/-- What a check of a query in this form shows of a fault: the wording, the query, and a caret in
the column of the fault. -/
theorem rejection_of_parse_error {q : Text} {limit : Int} {f : Fault}
    (h : parse q limit = .error f) :
    Report.rejection q f.diagnosis =
      "Invalid query: ".toList ++ f.message ++ "\n  ".toList ++ q ++ "\n  ".toList
        ++ List.replicate f.position ' ' ++ ['^'] := by
  delta Report.rejection
  rw [Report.caretColumn_of_parse_error h]
  rfl

theorem runCheck_of_error {f : Fault} (h : Query.compile (normalizeQuery query) = .error f) :
    runCheck query =
      ⟨.code 1, [.text ("Invalid query: ".toList ++ f.message ++ "\n  ".toList
        ++ normalizeQuery query ++ "\n  ".toList ++ List.replicate f.position ' ' ++ ['^'])],
        []⟩ := by
  rw [← rejection_of_parse_error h]
  rw [Query.compile, parse] at h
  simp only [runCheck]
  -- the check takes the two steps of compiling one by one
  cases hts : tokensOf (normalizeQuery query) defaultDepth with
  | error f' =>
    rw [hts] at h
    cases h
    rfl
  | ok ts =>
    rw [hts] at h
    simp only [bind, Except.bind] at h ⊢
    rw [h]

theorem runCheck_of_ok {t : Tree} (h : Query.compile (normalizeQuery query) = .ok t) :
    ∃ ts, tokensOf (normalizeQuery query) defaultDepth = .ok ts ∧
      runCheck query =
        ⟨.code 0, (ts.map tokenLine ++ [t.description]).map .text, []⟩ := by
  rw [Query.compile, parse] at h
  simp only [runCheck]
  cases hts : tokensOf (normalizeQuery query) defaultDepth with
  | error f' =>
    rw [hts] at h
    cases h
  | ok ts =>
    rw [hts] at h
    simp only [bind, Except.bind] at h ⊢
    rw [h]
    refine ⟨ts, rfl, ?_⟩
    rw [List.map_append, List.map_map]
    rfl

theorem runCheck_of_blank (hblank : ∀ char ∈ query, isBlank char) :
    runCheck query =
      ⟨.code 1, [.text "Invalid query: Query is empty\n  \n  ^".toList], []⟩ := by
  have hnormal : normalizeQuery query = [] := normalizeQuery_eq_nil_iff.2 hblank
  have hempty : Query.compile (normalizeQuery query) = .error .empty := by
    rw [hnormal, Query.compile, parse_eq_empty_iff]
    exact fun _ h => absurd h List.not_mem_nil
  rw [runCheck_of_error hempty, hnormal]
  rfl

/-- The check shows the fault that stops the strict search. -/
theorem compile_of_rejected {c : Search.Config} {items : List Item} {f : Fault}
    (h : (c.withFallback .strict).search query items = .error (.rejected f)) :
    Query.compile (normalizeQuery query) = .error f :=
  (Config.compile_strict_eq_error_iff.1 (Config.search_eq_rejected_iff.1 h)).2

/-- Unless the strict search rejects it, a query of more than blanks has a tree. The check describes
it, and searches evaluate it. -/
theorem runCheck_of_accepted {c : Search.Config} {items : List Item}
    (hdates : ∀ item ∈ items, ¬ c.LeavesCalendar item) (hne : normalizeQuery query ≠ [])
    (h : ∀ f, (c.withFallback .strict).search query items ≠ .error (.rejected f)) :
    ∃ ts t o, tokensOf (normalizeQuery query) defaultDepth = .ok ts ∧
      Query.compile (normalizeQuery query) = .ok t ∧
      runCheck query = ⟨.code 0, (ts.map tokenLine ++ [t.description]).map .text, []⟩ ∧
      (∀ mode, (c.withFallback mode).compile query = .ok (.tree t)) ∧
      (c.withFallback .strict).search query items = .ok o ∧
      c.Shows (items.filter fun item => t.accepts (normalize item.title)) o := by
  cases hparse : Query.compile (normalizeQuery query) with
  | error f =>
    have hf := Config.compile_strict_of_error (c := c) hne hparse
    exact absurd (Config.search_eq_rejected_iff.2 hf) (h f)
  | ok t =>
    have hm : ∀ mode, (c.withFallback mode).compile query = .ok (.tree t) :=
      fun mode => Config.compile_of_ok hne hparse
    obtain ⟨ts, hts, hcheck⟩ := runCheck_of_ok hparse
    obtain ⟨o, ho, -, -, hshows⟩ := Config.search_shows (hm .strict) hdates
    exact ⟨ts, t, o, hts, rfl, hcheck, hm, ho, hshows⟩

/-- No other query is described like this one, unless it has the same tree. -/
def Describes (t : Tree) : Prop :=
  ∀ query t', Query.compile (normalizeQuery query) = .ok t' → t'.description = t.description →
    t' = t

theorem describes_of_compile {t : Tree} (h : Query.compile (normalizeQuery query) = .ok t) :
    Describes t := fun _ _ h' =>
  eq_of_description_eq (hasWords_of_parse h') (hasWords_of_parse h)

end CommandLine

end Headline
