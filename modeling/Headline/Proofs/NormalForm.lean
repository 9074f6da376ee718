import Headline.Proofs.Lexemes
import Headline.Query.Normalize

/-!
# What the normal form keeps

Folding a character changes neither whether it is blank (`isBlank_foldChar`) nor any other one, so a
piece of a text has a piece of its normal form (`normalize_infix`). The normal form of a query has
the same characters as that of a title, and keeps its words apart in addition
(`dropBlanks_normalizeQuery`).
-/

namespace Headline

namespace Text

/-! ## Blanks and words -/

theorem dropBlanks_append (s t : Text) : dropBlanks (s ++ t) = dropBlanks s ++ dropBlanks t :=
  List.filter_append ..

theorem dropBlanks_flatten (parts : List Text) :
    dropBlanks parts.flatten = (parts.map dropBlanks).flatten :=
  List.filter_flatten ..

theorem dropBlanks_dropBlanks (s : Text) : dropBlanks (dropBlanks s) = dropBlanks s :=
  List.filter_eq_self.2 fun _ hc => (List.mem_filter.1 hc).2

/-- Leading blanks are dropped in any case. -/
theorem dropBlanks_dropWhile (s : Text) : dropBlanks (s.dropWhile isBlank) = dropBlanks s := by
  induction s with
  | nil => rfl
  | cons c s ih =>
    by_cases hc : isBlank c
    · rw [List.dropWhile_cons_of_pos hc, ih, dropBlanks, dropBlanks,
        List.filter_cons_of_neg (by simp [hc])]
    · rw [List.dropWhile_cons_of_neg hc]

/-- The words of a text in a row are the text without its blanks. -/
theorem flatten_words (s : Text) : (words s).flatten = dropBlanks s := by
  fun_induction words s with
  | case1 s h => rw [← dropBlanks_dropWhile, h]; rfl
  | case2 s c rest h ih =>
    -- behind the blanks in front a word begins
    have hc : isBlank c = false := by
      have := List.head?_dropWhile_not isBlank s
      rw [h] at this
      simpa using this
    have hrun : dropBlanks (c :: rest.takeWhile fun d => !isBlank d) =
        c :: rest.takeWhile fun d => !isBlank d := by
      refine List.filter_eq_self.2 (List.forall_mem_cons.2 ⟨by rw [hc]; rfl, fun d hd => ?_⟩)
      exact List.mem_takeWhile_imp (p := fun d => !isBlank d) hd
    have hsplit : rest =
        (rest.takeWhile fun d => !isBlank d) ++ rest.dropWhile fun d => !isBlank d :=
      List.takeWhile_append_dropWhile.symm
    rw [List.flatten_cons, ih, ← dropBlanks_dropWhile s, h]
    conv => rhs; rw [hsplit, ← List.cons_append, dropBlanks_append, hrun]

theorem isBlank_of_mem_words {s w : Text} (hw : w ∈ words s) {c : Char} (hc : c ∈ w) :
    isBlank c = false := by
  have hmem : c ∈ dropBlanks s := by
    rw [← flatten_words]
    exact List.mem_flatten.2 ⟨w, hw, hc⟩
  simpa using (List.mem_filter.1 hmem).2

theorem words_of_dropWhile_eq_nil {s : Text} (h : s.dropWhile isBlank = []) :
    words s = [] := by
  rw [words]
  split
  · rfl
  · next h' =>
    rw [h] at h'
    cases h'

theorem words_of_dropWhile_eq_cons {s rest : Text} {c : Char}
    (h : s.dropWhile isBlank = c :: rest) :
    words s = (c :: rest.takeWhile fun d => !isBlank d) ::
      words (rest.dropWhile fun d => !isBlank d) := by
  rw [words]
  split
  · next h' =>
    rw [h] at h'
    cases h'
  · next h' =>
    rw [h] at h'
    obtain ⟨rfl, rfl⟩ := List.cons_eq_cons.1 h'
    rfl

/-- Spaces between parts are blanks. -/
theorem dropBlanks_join (parts : List Text) :
    dropBlanks (join [' '] parts) = (parts.map dropBlanks).flatten := by
  induction parts with
  | nil => rfl
  | cons part parts ih =>
    cases parts with
    | nil => simp [join]
    | cons next parts =>
      rw [join, List.intercalate_cons_cons, dropBlanks_append, dropBlanks_append]
      show dropBlanks part ++ [] ++ dropBlanks (join [' '] (next :: parts)) = _
      rw [ih, List.append_nil]
      rfl

end Text

namespace Query

/-! ## Folding -/

theorem isFullWidth_iff {c : Char} :
    isFullWidth c ↔ 0xFF01 ≤ c.toNat ∧ c.toNat ≤ 0xFF5E ∧ c.toNat ≠ 0xFF08 ∧ c.toNat ≠ 0xFF09 := by
  simp [isFullWidth, and_assoc]

theorem isKatakana_iff {c : Char} : isKatakana c ↔ 0x30A1 ≤ c.toNat ∧ c.toNat ≤ 0x30F6 := by
  simp [isKatakana]

theorem toNat_ofNat_of_lt {n : Nat} (h : n < 0xD800) : (Char.ofNat n).toNat = n := by
  rw [Char.ofNat, dif_pos (.inl h)]
  rfl

theorem toNat_halfWidth (c : Char) :
    (halfWidth c).toNat = if isFullWidth c then c.toNat - 0xFEE0 else c.toNat := by
  rw [halfWidth]
  split
  · next h =>
    rw [isFullWidth_iff] at h
    exact toNat_ofNat_of_lt (by omega)
  · rfl

theorem toNat_hiragana (c : Char) :
    (hiragana c).toNat = if isKatakana c then c.toNat - 0x60 else c.toNat := by
  rw [hiragana]
  split
  · next h =>
    rw [isKatakana_iff] at h
    exact toNat_ofNat_of_lt (by omega)
  · rfl

/-- Folding is half width, hiragana and small letters, one after the other. -/
theorem foldChar_eq (c : Char) : foldChar c = (hiragana (halfWidth c)).toLower := by
  rw [foldChar]
  by_cases hfull : isFullWidth c
  -- what full-width characters become is ASCII, so there is no kana to fold
  · have hkana : ¬ isKatakana (halfWidth c) := by
      rw [isKatakana_iff, toNat_halfWidth, if_pos hfull]
      rw [isFullWidth_iff] at hfull
      omega
    rw [if_pos hfull, hiragana, if_neg hkana, halfWidth, if_pos hfull]
  · rw [if_neg hfull, halfWidth, if_neg hfull]
    by_cases hkana : isKatakana c
    -- hiragana have no lower case
    · have hsmall : (hiragana c).toLower = hiragana c := by
        rw [← Char.toNat_inj, toNat_toLower, toNat_hiragana, if_pos hkana]
        rw [isKatakana_iff] at hkana
        rw [if_neg (by omega)]
      rw [if_pos hkana, hsmall, hiragana, if_pos hkana]
    · rw [if_neg hkana, hiragana, if_neg hkana]

/-- Neither the visible characters of ASCII nor those behind the ideographic space are blank. -/
theorem isBlank_eq_false {c : Char}
    (h : 0x21 ≤ c.toNat ∧ c.toNat ≤ 0x7E ∨ 0x3001 ≤ c.toNat) : isBlank c = false := by
  rw [isBlank, Bool.eq_false_iff]
  simp only [ne_eq, Bool.or_eq_true, Bool.and_eq_true, decide_eq_true_eq, beq_iff_eq]
  omega

theorem isBlank_halfWidth (c : Char) : isBlank (halfWidth c) = isBlank c := by
  by_cases h : isFullWidth c
  · have hhalf := toNat_halfWidth c
    rw [if_pos h] at hhalf
    rw [isFullWidth_iff] at h
    rw [isBlank_eq_false (.inl (by omega)), isBlank_eq_false (.inr (by omega))]
  · rw [halfWidth, if_neg h]

theorem isBlank_hiragana (c : Char) : isBlank (hiragana c) = isBlank c := by
  by_cases h : isKatakana c
  · have hkana := toNat_hiragana c
    rw [if_pos h] at hkana
    rw [isKatakana_iff] at h
    rw [isBlank_eq_false (.inr (by omega)), isBlank_eq_false (.inr (by omega))]
  · rw [hiragana, if_neg h]

theorem isBlank_toLower (c : Char) : isBlank c.toLower = isBlank c := by
  have hlower := toNat_toLower c
  by_cases h : 65 ≤ c.toNat ∧ c.toNat ≤ 90
  · rw [if_pos h] at hlower
    rw [isBlank_eq_false (.inl (by omega)), isBlank_eq_false (.inl (by omega))]
  · rw [if_neg h] at hlower
    rw [Char.toNat_inj.1 hlower]

/-- Folding leaves blanks blank, and makes no others. -/
theorem isBlank_foldChar (c : Char) : isBlank (foldChar c) = isBlank c := by
  rw [foldChar_eq, isBlank_toLower, isBlank_hiragana, isBlank_halfWidth]

/-! ## Normal forms -/

theorem normalize_eq (s : Text) : normalize s = (Text.dropBlanks s).map foldChar := by
  have hblank : (fun c => !isBlank c) ∘ foldChar = fun c => !isBlank c :=
    funext fun c => by rw [Function.comp_apply, isBlank_foldChar]
  rw [normalize, Text.dropBlanks, Text.dropBlanks, List.filter_map, hblank]

/-- A word is only folded. -/
theorem normalize_of_word {w : Text} (hw : ∀ c ∈ w, isBlank c = false) :
    normalize w = w.map foldChar := by
  have hkeep : Text.dropBlanks w = w := List.filter_eq_self.2 fun c hc => by rw [hw c hc]; rfl
  rw [normalize_eq, hkeep]

theorem normalize_dropBlanks (s : Text) : normalize (Text.dropBlanks s) = normalize s := by
  rw [normalize_eq, normalize_eq, Text.dropBlanks_dropBlanks]

theorem dropBlanks_normalize (s : Text) : Text.dropBlanks (normalize s) = normalize s :=
  Text.dropBlanks_dropBlanks _

theorem normalize_flatten (parts : List Text) :
    normalize parts.flatten = (parts.map normalize).flatten := by
  rw [normalize, List.map_flatten, Text.dropBlanks_flatten, List.map_map]
  rfl

/-- A piece of a text has a piece of its normal form. -/
theorem normalize_infix {s t : Text} (h : s <:+: t) : normalize s <:+: normalize t :=
  (h.map foldChar).filter _

/-- Without the spaces between its words, a query has the normal form of a title. -/
theorem dropBlanks_normalizeQuery (q : Text) :
    Text.dropBlanks (normalizeQuery q) = normalize q := by
  have hparts : ((Text.words q).map normalize).map Text.dropBlanks =
      (Text.words q).map normalize := by
    rw [List.map_map]
    exact List.map_congr_left fun w _ => dropBlanks_normalize w
  rw [normalizeQuery, Text.dropBlanks_join, hparts, ← normalize_flatten, Text.flatten_words,
    normalize_dropBlanks]

theorem normalize_eq_nil_iff {s : Text} : normalize s = [] ↔ ∀ c ∈ s, isBlank c := by
  rw [normalize_eq, List.map_eq_nil_iff, Text.dropBlanks, List.filter_eq_nil_iff]
  simp

/-- A query of blanks has an empty normal form, and no other query has. -/
theorem normalizeQuery_eq_nil_iff {q : Text} : normalizeQuery q = [] ↔ ∀ c ∈ q, isBlank c := by
  constructor
  · intro h
    rw [← normalize_eq_nil_iff, ← dropBlanks_normalizeQuery, h]
    rfl
  · intro h
    rw [normalizeQuery, Text.words_of_dropWhile_eq_nil (List.dropWhile_eq_nil_iff.2 h)]
    rfl

end Query

end Headline
