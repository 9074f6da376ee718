import Headline.Proofs.Description
import Headline.Proofs.NormalForm
import Mathlib.Data.List.Chain

/-!
# The words of a normal form

A folded character is folded to itself (`foldChar_foldChar`), so a normal form is its own. The
normal form of a query has the words of the query, each in normal form (`words_normalizeQuery`), and
nothing but single spaces between them (`Text.Spaced`). That ties the two normal forms together
(`normal_forms_fit`).
-/

namespace Headline

namespace Text

/-! ## Words and spaces -/

theorem words_blank_cons {c : Char} (hc : isBlank c) (s : Text) : words (c :: s) = words s := by
  have hskip : (c :: s).dropWhile isBlank = s.dropWhile isBlank := List.dropWhile_cons_of_pos hc
  cases h : s.dropWhile isBlank with
  | nil => rw [words_of_dropWhile_eq_nil h, words_of_dropWhile_eq_nil (hskip.trans h)]
  | cons d rest => rw [words_of_dropWhile_eq_cons h, words_of_dropWhile_eq_cons (hskip.trans h)]

/-- The first word of a text, up to a blank or to the end. -/
theorem words_append {w rest : Text} (hne : w ≠ []) (hw : ∀ c ∈ w, isBlank c = false)
    (hrest : ∀ c ∈ rest.head?, isBlank c) : words (w ++ rest) = w :: words rest := by
  obtain ⟨c, w, rfl⟩ := List.exists_cons_of_ne_nil hne
  obtain ⟨hc, hw⟩ := List.forall_mem_cons.1 hw
  have hletters : ∀ d ∈ w, (!isBlank d) = true := fun d hd => by rw [hw d hd]; rfl
  have hstop : rest.takeWhile (fun d => !isBlank d) = [] ∧
      rest.dropWhile (fun d => !isBlank d) = rest := by
    cases rest with
    | nil => exact ⟨rfl, rfl⟩
    | cons d rest =>
      have hd : ¬ (!isBlank d) = true := by simp [hrest d rfl]
      exact ⟨List.takeWhile_cons_of_neg hd, List.dropWhile_cons_of_neg hd⟩
  have hhere : (c :: w ++ rest).dropWhile isBlank = c :: (w ++ rest) :=
    List.dropWhile_cons_of_neg (by rw [hc]; exact Bool.false_ne_true)
  rw [words_of_dropWhile_eq_cons hhere, List.takeWhile_append_of_pos hletters,
    List.dropWhile_append_of_pos hletters, hstop.1, hstop.2, List.append_nil]

theorem ne_nil_of_mem_words {s w : Text} (h : w ∈ words s) : w ≠ [] := by
  fun_induction words s with
  | case1 => cases h
  | case2 s c rest _ ih =>
    rcases List.mem_cons.1 h with rfl | h
    · exact List.cons_ne_nil _ _
    · exact ih h

/-- A text is cut into the words that it has been put together from. -/
theorem words_join {parts : List Text} (hne : ∀ w ∈ parts, w ≠ [])
    (hparts : ∀ w ∈ parts, ∀ c ∈ w, isBlank c = false) : words (join [' '] parts) = parts := by
  -- with a blank in front of every word, the first one is no case by itself
  have hspaced : words (parts.flatMap ([' '] ++ ·)) = parts := by
    induction parts with
    | nil => exact words_of_dropWhile_eq_nil rfl
    | cons w parts ih =>
      obtain ⟨hw, hne⟩ := List.forall_mem_cons.1 hne
      obtain ⟨hletters, hparts⟩ := List.forall_mem_cons.1 hparts
      have hstop : ∀ c ∈ (parts.flatMap ([' '] ++ ·)).head?, isBlank c := by
        cases parts with
        | nil => simp
        | cons next parts => exact fun c hc => Option.some.inj hc ▸ rfl
      rw [List.flatMap_cons, List.append_assoc, List.singleton_append,
        words_blank_cons (by decide), words_append hw hletters hstop, ih hne hparts]
  cases parts with
  | nil => exact words_of_dropWhile_eq_nil rfl
  | cons w parts =>
    rw [List.flatMap_cons, List.append_assoc, List.singleton_append,
      words_blank_cons (by decide)] at hspaced
    rwa [join_cons]

/-! ## Single spaces -/

/-- Words with single spaces between them, and none at either end. -/
structure Spaced (s : Text) : Prop where
  first : s.head?.all fun c => !isBlank c
  last : s.getLast?.all fun c => !isBlank c
  single : s.IsChain fun c d => !(isBlank c && isBlank d)
  space : s.all fun c => !isBlank c || c == ' '

theorem spaced_of_word {w : Text} (hw : ∀ c ∈ w, isBlank c = false) : Spaced w where
  first := by
    rw [Option.all_eq_true]
    exact fun c hc => by rw [hw c (List.mem_of_head? hc)]; rfl
  last := by
    rw [Option.all_eq_true]
    exact fun c hc => by rw [hw c (List.mem_of_getLast? hc)]; rfl
  single := by
    refine List.Pairwise.isChain (List.Pairwise.imp_of_mem (fun {c d} hc _ _ => ?_)
      (List.pairwise_of_forall fun _ _ => trivial))
    rw [hw c hc]
    rfl
  space := List.all_eq_true.2 fun c hc => by rw [hw c hc]; rfl

theorem Spaced.append {s t : Text} (hs : Spaced s) (ht : Spaced t) (hsne : s ≠ []) (htne : t ≠ []) :
    Spaced (s ++ ' ' :: t) where
  first := by
    rw [List.head?_append_of_ne_nil _ hsne]
    exact hs.first
  last := by
    rw [List.getLast?_append_cons, List.getLast?_cons_of_ne_nil htne]
    exact ht.last
  single := by
    refine hs.single.append (ht.single.cons fun d hd => ?_) fun c hc d hd => ?_
    · have hd : (!isBlank d) = true := (Option.all_eq_true _ _).1 ht.first d hd
      rw [Bool.not_and, hd, Bool.or_true]
    · have hc : (!isBlank c) = true := (Option.all_eq_true _ _).1 hs.last c hc
      rw [Bool.not_and, hc, Bool.true_or]
  space := by
    rw [List.all_append, hs.space, List.all_cons, ht.space]
    rfl

theorem spaced_join {parts : List Text} (hne : ∀ w ∈ parts, w ≠ [])
    (hparts : ∀ w ∈ parts, ∀ c ∈ w, isBlank c = false) : Spaced (join [' '] parts) := by
  induction parts with
  | nil => exact spaced_of_word (by simp [join])
  | cons w parts ih =>
    obtain ⟨hw, hne⟩ := List.forall_mem_cons.1 hne
    obtain ⟨hletters, hparts⟩ := List.forall_mem_cons.1 hparts
    cases parts with
    | nil =>
      rw [join_cons, List.flatMap_nil, List.append_nil]
      exact spaced_of_word hletters
    -- behind the first of several words there stands a blank
    | cons next parts =>
      have hrest : join [' '] (w :: next :: parts) = w ++ ' ' :: join [' '] (next :: parts) := by
        rw [join_cons, join_cons, List.flatMap_cons, List.append_assoc]
        rfl
      have hnext : join [' '] (next :: parts) ≠ [] := by
        rw [join_cons]
        exact List.append_ne_nil_of_left_ne_nil (hne next (List.mem_cons_self ..)) _
      rw [hrest]
      exact (spaced_of_word hletters).append (ih hne hparts) hw hnext

end Text

namespace Query

/-! ## Folding twice -/

/-- What is neither full-width, nor katakana, nor a capital is folded to itself. -/
theorem foldChar_of_plain {c : Char} (hfull : ¬ isFullWidth c) (hkana : ¬ isKatakana c)
    (hcapital : ¬ (65 ≤ c.toNat ∧ c.toNat ≤ 90)) : foldChar c = c := by
  rw [foldChar, if_neg hfull, if_neg hkana, ← Char.toNat_inj, toNat_toLower, if_neg hcapital]

/-- Nothing that is left to fold comes out of folding. -/
theorem foldChar_foldChar (c : Char) : foldChar (foldChar c) = foldChar c := by
  have hhalf := toNat_halfWidth c
  have hkana := toNat_hiragana (halfWidth c)
  have hsmall := toNat_toLower (hiragana (halfWidth c))
  rw [← foldChar_eq] at hsmall
  simp only [isFullWidth_iff, isKatakana_iff] at hhalf hkana
  apply foldChar_of_plain
  · rw [isFullWidth_iff]
    split at hhalf <;> split at hkana <;> split at hsmall <;> omega
  · rw [isKatakana_iff]
    split at hhalf <;> split at hkana <;> split at hsmall <;> omega
  · split at hhalf <;> split at hkana <;> split at hsmall <;> omega

/-! ## Normal forms -/

theorem normalize_normalize (s : Text) : normalize (normalize s) = normalize s := by
  have hfold : foldChar ∘ foldChar = foldChar := funext foldChar_foldChar
  rw [normalize_eq (normalize s), dropBlanks_normalize, normalize_eq, List.map_map, hfold]

theorem normalize_append (s t : Text) : normalize (s ++ t) = normalize s ++ normalize t := by
  rw [normalize, List.map_append, Text.dropBlanks_append]
  rfl

/-- The normal form, one full pass after another: width, kana, blanks and case. -/
theorem normalize_eq_passes (s : Text) :
    normalize s = Text.lowerAscii (Text.dropBlanks ((s.map halfWidth).map hiragana)) := by
  have hfold : foldChar = Char.toLower ∘ hiragana ∘ halfWidth := funext foldChar_eq
  have hblank : (fun c => !isBlank c) ∘ hiragana ∘ halfWidth = fun c => !isBlank c :=
    funext fun c => by simp only [Function.comp_apply, isBlank_hiragana, isBlank_halfWidth]
  rw [normalize_eq, List.map_map, Text.lowerAscii, Text.dropBlanks, Text.dropBlanks,
    List.filter_map, hblank, List.map_map, hfold]

section Queries

variable {q w : Text}

theorem normalize_of_mem_words (hw : w ∈ Text.words q) : normalize w = w.map foldChar :=
  normalize_of_word fun _ hc => Text.isBlank_of_mem_words hw hc

theorem ne_nil_of_mem_normal_words (hw : w ∈ (Text.words q).map normalize) : w ≠ [] := by
  obtain ⟨v, hv, rfl⟩ := List.mem_map.1 hw
  rw [normalize_of_mem_words hv, ne_eq, List.map_eq_nil_iff]
  exact Text.ne_nil_of_mem_words hv

theorem isBlank_of_mem_normal_words (hw : w ∈ (Text.words q).map normalize) :
    ∀ c ∈ w, isBlank c = false := by
  obtain ⟨v, hv, rfl⟩ := List.mem_map.1 hw
  intro c hc
  simpa using (List.mem_filter.1 hc).2

/-- The words of a query in normal form are its words, each in normal form. -/
theorem words_normalizeQuery (q : Text) :
    Text.words (normalizeQuery q) = (Text.words q).map normalize :=
  Text.words_join (fun _ hw => ne_nil_of_mem_normal_words hw)
    fun _ hw => isBlank_of_mem_normal_words hw

theorem spaced_normalizeQuery (q : Text) : Text.Spaced (normalizeQuery q) :=
  Text.spaced_join (fun _ hw => ne_nil_of_mem_normal_words hw)
    fun _ hw => isBlank_of_mem_normal_words hw

theorem normalizeQuery_normalizeQuery (q : Text) :
    normalizeQuery (normalizeQuery q) = normalizeQuery q := by
  have hnormal : normalize ∘ normalize = normalize := funext normalize_normalize
  rw [normalizeQuery, words_normalizeQuery, List.map_map, hnormal]
  rfl

theorem normalize_normalizeQuery (q : Text) : normalize (normalizeQuery q) = normalize q := by
  rw [← normalize_dropBlanks, dropBlanks_normalizeQuery, normalize_normalize]

end Queries

/-- The two normal forms fit together. That of a query is its own, has the normal form of the query
as a title, and has the words of the query one by one, each in normal form and as long as before,
with single spaces between them; it is empty if the query is blank. That of a title is its own too,
is made piece by piece, and comes out of one full pass after another. -/
theorem normal_forms_fit (q s t : Text) :
    normalizeQuery (normalizeQuery q) = normalizeQuery q ∧
    normalize (normalizeQuery q) = normalize q ∧
    Text.words (normalizeQuery q) = (Text.words q).map normalize ∧
    (Text.words (normalizeQuery q)).map List.length = (Text.words q).map List.length ∧
    Text.Spaced (normalizeQuery q) ∧
    (normalizeQuery q = [] ↔ q.all isBlank) ∧
    normalize (normalize s) = normalize s ∧
    normalize (s ++ t) = normalize s ++ normalize t ∧
    normalize s = Text.lowerAscii (Text.dropBlanks ((s.map halfWidth).map hiragana)) := by
  refine ⟨normalizeQuery_normalizeQuery q, normalize_normalizeQuery q, words_normalizeQuery q, ?_,
    spaced_normalizeQuery q, ?_, normalize_normalize s, normalize_append s t,
    normalize_eq_passes s⟩
  · rw [words_normalizeQuery, List.map_map]
    refine List.map_congr_left fun w hw => ?_
    rw [Function.comp_apply, normalize_of_mem_words hw, List.length_map]
  · rw [normalizeQuery_eq_nil_iff, List.all_eq_true]

/-- Wide gaps become single spaces, and a full-width parenthesis stays. -/
example : normalizeQuery "　Ａ＋ \t（カ B ".toList = "a+ （か b".toList := by decide +kernel

end Query

end Headline
