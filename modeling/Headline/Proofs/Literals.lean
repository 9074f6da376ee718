import Headline.Proofs.HalfWidth
import Headline.Proofs.Matching
import Headline.Proofs.NormalWords
import Headline.Proofs.Readability

/-!
# The literals of a compiled query

What a compiled query looks for are the words among its tokens, in their order. They are cut out of
a normal form, and every piece of a normal form is its own normal form
(`normalize_eq_self_of_infix`). So each of them is found in a title that spells it
(`literals_can_match`).
-/

namespace Headline.Search

open Query

/-- A compiled tree is the tree of the query in normal form. -/
theorem Config.parse_of_compile_eq_tree {c : Config} {query : Text} {t : Tree}
    (h : c.compile query = .ok (.tree t)) : Query.compile (normalizeQuery query) = .ok t := by
  cases hparse : Query.compile (normalizeQuery query) with
  | ok t' =>
    simp only [compile, hparse] at h
    split at h
    · cases h
    · cases h
      rfl
  | error fault =>
    simp only [compile, hparse] at h
    split at h
    · cases h
    · split at h <;> cases h

/-! ## Pieces of a normal form -/

/-- Nothing is left to normalize in a piece of a normal form. -/
theorem normalize_eq_self_of_infix {w s : Text} (h : w <:+: normalize s) : normalize w = w := by
  have hfolded : ∀ c ∈ w, isBlank c = false ∧ foldChar c = c := by
    intro c hc
    obtain ⟨hmap, hblank⟩ := List.mem_filter.1 (h.subset hc)
    obtain ⟨d, -, rfl⟩ := List.mem_map.1 hmap
    exact ⟨by simpa using hblank, foldChar_foldChar d⟩
  rw [normalize_of_word fun c hc => (hfolded c hc).1]
  exact (List.map_congr_left fun c hc => (hfolded c hc).2).trans (List.map_id w)

/-! ## Literals -/

theorem lowerAscii_ne_of_ofWord {w : Text} (h : TokenKind.ofWord w = .word) :
    Text.lowerAscii w ≠ "and".toList ∧ Text.lowerAscii w ≠ "or".toList := by
  rw [ofWord_eq] at h
  constructor
  · intro hand
    rw [if_pos hand] at h
    cases h
  · intro hor
    rw [hor] at h
    cases h

/-- Whenever a query is compiled to a tree, the words of the tree are those of the tokens of its
normal form, none lost, repeated or moved. Each is a word and no operator, and is in normal form
already, so that it is found in every title that spells it. -/
theorem literals_can_match {c : Config} {query : Text} {t : Tree}
    (h : c.compile query = .ok (.tree t)) :
    (∃ ts, tokenize (normalizeQuery query) defaultDepth = .ok ts ∧ t.words = wordsOf ts) ∧
    ∀ w ∈ t.words,
      (w ≠ [] ∧ ∀ c ∈ w, isBlank c = false ∧ c ≠ '(' ∧ c ≠ ')') ∧
      (Text.lowerAscii w ≠ "and".toList ∧ Text.lowerAscii w ≠ "or".toList) ∧
      normalize w = w ∧
      ∀ title, w <:+: title → Tree.accepts (.word w) (normalize title) := by
  have hparse := Config.parse_of_compile_eq_tree h
  constructor
  · obtain ⟨ts, hscan, hwords⟩ := words_of_parse hparse
    exact ⟨ts, scan_of_scans hscan, hwords⟩
  · intro w hw
    obtain ⟨hword, hkind⟩ := isWord_of_mem_words hparse hw
    have hnormal := normalize_eq_self_of_infix (infix_normalize_of_mem_words hparse hw)
    refine ⟨hword, lowerAscii_ne_of_ofWord hkind, hnormal, fun title htitle => ?_⟩
    have hfound : w <:+: normalize title := hnormal ▸ normalize_infix htitle
    apply Tree.accepts_of_evaluate
    rw [Expr.evaluate, Text.occursIn_iff.2 hfound]

/-- A word with a hyphen behind a group, and a negated group with two hyphens inside. -/
theorem literals_behind_groups :
    let c : Config := { fallback := .strict }
    let query := "(Ａ)-B －(c　ＯＲ --ト（)".toList
    ∃ t, c.compile query = .ok (.tree t) ∧
      t.words = ["a".toList, "-b".toList, "c".toList, "--と（".toList] ∧
      (∃ ts, tokenize (normalizeQuery query) defaultDepth = .ok ts ∧ t.words = wordsOf ts) ∧
      Tree.accepts (.word "-b".toList) (normalize "Ａ -bＣ".toList) := by
  intro c query
  have hparse : Query.compile (normalizeQuery query) = .ok
      (.and (.and (.word "a".toList) (.word "-b".toList))
        (.not (.or (.word "c".toList) (.word "--と（".toList)))) := by decide +kernel
  have htree := Config.compile_of_ok (c := c) (by decide +kernel) hparse
  obtain ⟨htokens, hwords⟩ := literals_can_match htree
  have hmem : "-b".toList ∈ Expr.words (.and (.and (.word "a".toList) (.word "-b".toList))
      (.not (.or (.word "c".toList) (.word "--と（".toList))) : Tree) := by simp [Expr.words]
  have hpiece : "-b".toList <:+: "Ａ -bＣ".toList := ⟨"Ａ ".toList, "Ｃ".toList, by decide⟩
  exact ⟨_, htree, rfl, htokens, (hwords _ hmem).2.2.2 _ hpiece⟩

end Headline.Search
