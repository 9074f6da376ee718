import Headline.Proofs.NormalForm
import Headline.Proofs.Words
import Headline.Search.Matcher

/-!
# What a query matches

A query is compiled to one of three matchers (`compile_of_blank`, `compile_of_ok`,
`compile_of_error`), so under the fallback there always is one (`compile_cases`). A piece of a title
may become any of them, and finds the title in each case (`accepts_piece`): all that a matcher looks
for stands in the normal form of its query.
-/

namespace Headline.Search

open Query

namespace Config

variable {c : Config} {query : Text}

/-! ## Compiled queries -/

theorem compile_of_blank (h : normalizeQuery query = []) : c.compile query = .ok .everything := by
  rw [compile, h]
  rfl

theorem compile_of_ok (hne : normalizeQuery query ≠ []) {t : Tree}
    (h : Query.compile (normalizeQuery query) = .ok t) : c.compile query = .ok (.tree t) := by
  rw [compile, h]
  exact if_neg (by simpa using hne)

theorem compile_of_error (hc : c.fallback = .substring) (hne : normalizeQuery query ≠ [])
    {fault : Fault} (h : Query.compile (normalizeQuery query) = .error fault) :
    c.compile query = .ok (.substring (normalize query) fault) := by
  rw [compile, h, hc]
  exact if_neg (by simpa using hne)

/-- Under the fallback every query has a matcher. -/
theorem compile_cases (hc : c.fallback = .substring) (query : Text) :
    c.compile query = .ok .everything ∨
    (∃ t, Query.compile (normalizeQuery query) = .ok t ∧ c.compile query = .ok (.tree t)) ∨
    ∃ fault, c.compile query = .ok (.substring (normalize query) fault) := by
  by_cases hblank : normalizeQuery query = []
  · exact .inl (compile_of_blank hblank)
  · cases hparse : Query.compile (normalizeQuery query) with
    | ok t => exact .inr (.inl ⟨t, rfl, compile_of_ok hblank hparse⟩)
    | error fault => exact .inr (.inr ⟨fault, compile_of_error hc hblank hparse⟩)

end Config

/-! ## Pieces of a title -/

/-- Every word of the tree of a query stands in the normal form of the query. -/
theorem infix_normalize_of_mem_words {query : Text} {t : Tree}
    (h : Query.compile (normalizeQuery query) = .ok t) {w : Text} (hw : w ∈ t.words) :
    w <:+: normalize query := by
  rw [← dropBlanks_normalizeQuery]
  exact infix_of_mem_words h hw

/-- Under the fallback, every piece of a title makes a matcher, and finds the title unless its tree
negates something. -/
theorem accepts_piece {c : Config} (hc : c.fallback = .substring) {title piece : Text}
    (h : piece <:+: title) :
    ∃ m, c.compile piece = .ok m ∧
      ((∀ t, m = .tree t → t.negationFree) → m.accepts (normalize title)) := by
  have hnormal : normalize piece <:+: normalize title := normalize_infix h
  rcases Config.compile_cases hc piece with hm | ⟨t, hparse, hm⟩ | ⟨fault, hm⟩
  · exact ⟨_, hm, fun _ => rfl⟩
  · refine ⟨_, hm, fun hfree => ?_⟩
    refine accepts_of_negationFree (hfree t rfl) fun w hw => ?_
    exact (infix_normalize_of_mem_words hparse hw).trans hnormal
  · exact ⟨_, hm, fun _ => Text.occursIn_iff.2 hnormal⟩

/-- A piece with a whole group is a boolean query. A piece that cuts a group in two is not. -/
theorem pieces_with_parentheses :
    let title := "Ａ (Cafe) OR".toList
    let c : Config := {}
    (∃ t, c.compile "Ａ (Cafe)".toList = .ok (.tree t) ∧ t.accepts (normalize title)) ∧
      ∃ needle, c.compile "(Cafe".toList = .ok (.substring needle (.unmatchedOpening 0)) ∧
        needle.occursIn (normalize title) := by
  intro title c
  constructor
  · have hpiece : "Ａ (Cafe)".toList <:+: title := ⟨[], " OR".toList, by decide⟩
    obtain ⟨m, hm, hfinds⟩ := accepts_piece (c := c) rfl hpiece
    have hparse : Query.compile (normalizeQuery "Ａ (Cafe)".toList) =
        .ok (.and (.word ['a']) (.word "cafe".toList)) := by decide +kernel
    have htree := Config.compile_of_ok (c := c) (by decide +kernel) hparse
    obtain rfl := Except.ok.inj (hm.symm.trans htree)
    refine ⟨_, hm, hfinds fun t ht => ?_⟩
    obtain rfl := Matcher.tree.inj ht
    decide
  -- this piece leaves a group open, so it is looked for as it stands
  · have hpiece : "(Cafe".toList <:+: title := ⟨"Ａ ".toList, ") OR".toList, by decide⟩
    obtain ⟨m, hm, hfinds⟩ := accepts_piece (c := c) rfl hpiece
    have hparse : Query.compile (normalizeQuery "(Cafe".toList) = .error (.unmatchedOpening 0) := by
      decide +kernel
    have hneedle := Config.compile_of_error (c := c) rfl (by decide +kernel) hparse
    obtain rfl := Except.ok.inj (hm.symm.trans hneedle)
    exact ⟨_, hm, hfinds fun t ht => by cases ht⟩

end Headline.Search
