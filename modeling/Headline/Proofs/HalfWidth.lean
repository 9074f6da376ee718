import Headline.Proofs.Condensing

/-!
# Parsing queries in normal form

The normal form of a query condenses the query in half width (`condenses_normalizeQuery`): single
spaces for its gaps, hiragana and small letters for the rest. So parsing the normal form gives the
tree of the query in half width, with each word in normal form (`parse_normalizeQuery_iff`).
-/

namespace Headline.Query

/-! ## Words in half width -/

/-- Hiragana and small letters. -/
def foldLetter (c : Char) : Char := (hiragana c).toLower

theorem foldChar_eq_foldLetter (c : Char) : foldChar c = foldLetter (halfWidth c) := foldChar_eq c

theorem toNat_foldLetter (c : Char) :
    (foldLetter c).toNat =
      if isKatakana c then c.toNat - 0x60
      else if 65 ≤ c.toNat ∧ c.toNat ≤ 90 then c.toNat + 32 else c.toNat := by
  rw [foldLetter, toNat_toLower, toNat_hiragana]
  by_cases hkana : isKatakana c
  · rw [if_pos hkana, if_pos hkana]
    rw [isKatakana_iff] at hkana
    exact if_neg (by omega)
  · rw [if_neg hkana, if_neg hkana]

/-- Neither kana nor capitals count for a small letter of ASCII. -/
theorem toLower_foldLetter_eq_iff {c d : Char} (hd : d.toNat < 0x3000) :
    (foldLetter c).toLower = d ↔ c.toLower = d := by
  rw [← Char.toNat_inj, ← Char.toNat_inj, toNat_toLower, toNat_toLower, toNat_foldLetter]
  by_cases hkana : isKatakana c
  · rw [if_pos hkana]
    rw [isKatakana_iff] at hkana
    repeat' split
    all_goals omega
  · rw [if_neg hkana]
    repeat' split
    all_goals omega

theorem lowerAscii_map_foldLetter_eq_iff {u : Text} (hu : ∀ d ∈ u, d.toNat < 0x3000) (w : Text) :
    Text.lowerAscii (w.map foldLetter) = u ↔ Text.lowerAscii w = u := by
  induction w generalizing u with
  | nil => rfl
  | cons c w ih =>
    cases u with
    | nil => simp [Text.lowerAscii]
    | cons d u =>
      obtain ⟨hd, hu⟩ := List.forall_mem_cons.1 hu
      have htail := ih hu
      simp only [Text.lowerAscii, List.map_cons, List.cons.injEq] at htail ⊢
      rw [toLower_foldLetter_eq_iff hd, htail]

theorem ofWord_eq (w : Text) :
    TokenKind.ofWord w =
      if Text.lowerAscii w = "and".toList then .and
      else if Text.lowerAscii w = "or".toList then .or
      else .word :=
  congrArg Token.kind (wordToken_eq w 0).symm

theorem keepsRoles_foldLetter : KeepsRoles foldLetter where
  isBlank c := by rw [foldLetter, isBlank_toLower, isBlank_hiragana]
  mark c d hd := by
    have hnum : d.toNat = 40 ∨ d.toNat = 41 ∨ d.toNat = 45 := by
      rcases hd with rfl | rfl | rfl <;> decide
    rw [← Char.toNat_inj, ← Char.toNat_inj, toNat_foldLetter]
    -- no kana is one of the marks, and no kana is folded onto one
    by_cases hkana : isKatakana c
    · rw [if_pos hkana]
      rw [isKatakana_iff] at hkana
      omega
    · rw [if_neg hkana]
      split <;> omega
  ofWord w := by
    have hand : ∀ d ∈ "and".toList, d.toNat < 0x3000 := by simp
    have hor : ∀ d ∈ "or".toList, d.toNat < 0x3000 := by simp
    simp only [ofWord_eq, lowerAscii_map_foldLetter_eq_iff hand,
      lowerAscii_map_foldLetter_eq_iff hor]

/-- Rewriting that keeps blanks rewrites word by word. -/
theorem words_map {f : Char → Char} (hf : ∀ c, isBlank (f c) = isBlank c) (s : Text) :
    Text.words (s.map f) = (Text.words s).map (List.map f) := by
  have hblank : isBlank ∘ f = isBlank := funext hf
  have hother : (fun c => !isBlank c) ∘ f = fun c => !isBlank c := by
    funext c
    rw [Function.comp_apply, hf]
  fun_induction Text.words s with
  | case1 s h =>
    apply Text.words_of_dropWhile_eq_nil
    rw [List.dropWhile_map, hblank, h]
    rfl
  | case2 s c rest h ih =>
    have hmap : (s.map f).dropWhile isBlank = f c :: rest.map f := by
      rw [List.dropWhile_map, hblank, h]
      rfl
    rw [Text.words_of_dropWhile_eq_cons hmap, List.takeWhile_map, List.dropWhile_map, hother, ih]
    rfl

/-- The normal form of a query comes from its words in half width. -/
theorem normalizeQuery_eq (q : Text) :
    normalizeQuery q =
      Text.join [' '] ((Text.words (q.map halfWidth)).map (List.map foldLetter)) := by
  have hword : ∀ w ∈ Text.words q, normalize w = (w.map halfWidth).map foldLetter := by
    intro w hw
    rw [normalize_of_word fun c hc => Text.isBlank_of_mem_words hw hc, List.map_map]
    exact List.map_congr_left fun c _ => foldChar_eq_foldLetter c
  rw [normalizeQuery, words_map isBlank_halfWidth, List.map_map, List.map_congr_left hword]
  rfl

theorem condenses_normalizeQuery (q : Text) :
    Condenses foldLetter true (q.map halfWidth) (normalizeQuery q) := by
  rw [normalizeQuery_eq]
  exact condenses_join_words foldLetter _

theorem halfWidth_halfWidth (c : Char) : halfWidth (halfWidth c) = halfWidth c := by
  by_cases hfull : isFullWidth c
  · have hhalf : ¬ isFullWidth (halfWidth c) := by
      rw [isFullWidth_iff, toNat_halfWidth, if_pos hfull]
      rw [isFullWidth_iff] at hfull
      omega
    exact if_neg hhalf
  · have hsame : halfWidth c = c := if_neg hfull
    rw [hsame, hsame]

/-- The width of its characters does not show in the normal form of a query. -/
theorem normalizeQuery_halfWidth (q : Text) :
    normalizeQuery (q.map halfWidth) = normalizeQuery q := by
  have hhalf : halfWidth ∘ halfWidth = halfWidth := funext halfWidth_halfWidth
  rw [normalizeQuery_eq, normalizeQuery_eq q, List.map_map, hhalf]

/-- A word of a query in half width only has letters left to fold. -/
theorem map_foldLetter_of_mem_words {q : Text} {limit : Int} {t : Tree}
    (h : parse (q.map halfWidth) limit = .ok t) {w : Text} (hw : w ∈ t.words) :
    w.map foldLetter = normalize w := by
  have hmem : ∀ c ∈ w, c ∈ Text.dropBlanks (q.map halfWidth) :=
    fun c hc => (infix_of_mem_words h hw).subset hc
  rw [normalize_of_word fun c hc => by simpa using (List.mem_filter.1 (hmem c hc)).2]
  refine List.map_congr_left fun c hc => ?_
  obtain ⟨d, -, rfl⟩ := List.mem_map.1 (List.mem_filter.1 (hmem c hc)).1
  rw [foldChar_eq_foldLetter, halfWidth_halfWidth]

/-- Parsing the normal form of a query puts the words of its tree in half width in normal form. -/
theorem parse_normalizeQuery_iff {q : Text} {limit : Int} {t : Tree} :
    parse (normalizeQuery q) limit = .ok t ↔
      ∃ t', parse (q.map halfWidth) limit = .ok t' ∧ t'.mapWords normalize = t := by
  rw [parse_condensed_iff keepsRoles_foldLetter (condenses_normalizeQuery q)]
  refine exists_congr fun t' => and_congr_right fun h => ?_
  rw [Expr.mapWords_congr fun w hw => map_foldLetter_of_mem_words h hw]

/-! ## Groups -/

/-- One token opens a group for each `(`, and one closes it for each `)`. -/
theorem countP_kind_of_scans {limit : Int} {previous : Option Char} {position : Nat}
    {opened : List Nat} {s : Text} {ts : List Token}
    (h : Scans limit previous position opened s ts) :
    ts.countP (fun t => t.kind = .opening) = s.count '(' ∧
      ts.countP (fun t => t.kind = .closing) = s.count ')' := by
  induction h with
  | done => exact ⟨rfl, rfl⟩
  | blank hc h ih =>
    obtain ⟨hl, hr⟩ := ne_paren_of_isBlank hc
    rwa [List.count_cons_of_ne hl, List.count_cons_of_ne hr]
  | opening hdepth h ih => simpa using ih
  | closing h ih => simpa using ih
  | negation hprevious hnext h ih => simpa using ih
  | @word _ _ _ c run s ts hc hrun hs hhyphen h ih =>
    have hletters : ∀ d ∈ c :: run, isLetter d := List.forall_mem_cons.2 ⟨hc, hrun⟩
    -- there is no parenthesis among the letters of a word
    have hnone : ∀ d ∈ c :: run, d ≠ '(' ∧ d ≠ ')' :=
      fun d hd => (isLetter_iff.1 (hletters d hd)).2
    have hl : (c :: run).count '(' = 0 := List.count_eq_zero.2 fun h => (hnone _ h).1 rfl
    have hr : (c :: run).count ')' = 0 := List.count_eq_zero.2 fun h => (hnone _ h).2 rfl
    rw [← List.cons_append, List.count_append, List.count_append, hl, hr, Nat.zero_add,
      Nat.zero_add, List.countP_cons_of_neg (by simp [ofWord_ne_opening]),
      List.countP_cons_of_neg (by simp [ofWord_ne_closing])]
    exact ih

/-- The normal form of a query has its parentheses, and no others. -/
theorem count_normalizeQuery (q : Text) {d : Char} (hd : d = '(' ∨ d = ')') :
    (normalizeQuery q).count d = q.count d := by
  -- blanks are not counted, so it does not matter which of them normalizing drops
  have hkeep : ∀ s : Text, (Text.dropBlanks s).count d = s.count d := by
    intro s
    refine List.count_filter ?_
    rcases hd with rfl | rfl <;> rfl
  have hfold : ∀ c, foldChar c = d ↔ c = d := by
    intro c
    have hhalf : halfWidth c = d ↔ c = d := by
      have hnum : d.toNat = 40 ∨ d.toNat = 41 := by rcases hd with rfl | rfl <;> decide
      rw [← Char.toNat_inj, ← Char.toNat_inj, toNat_halfWidth]
      split
      · next hfull =>
        rw [isFullWidth_iff] at hfull
        omega
      · rfl
    rw [foldChar_eq_foldLetter, keepsRoles_foldLetter.mark _ _ (by tauto), hhalf]
  rw [← hkeep (normalizeQuery q), dropBlanks_normalizeQuery, normalize_eq, ← hkeep q, List.count,
    List.countP_map]
  refine List.countP_congr fun c _ => ?_
  simp [hfold]

/-! ## The normal form and the parser -/

/-- Putting a query in normal form commutes with parsing it: the tree is that of the query in half
width, with its words in normal form. So queries with the same words up to case, kana and width have
trees of the same shape, however their words are parted. The width of a character never counts,
except that only half-width parentheses make groups. -/
theorem compile_normalizeQuery_iff (q : Text) :
    (∀ t, compile (normalizeQuery q) = .ok t ↔
      ∃ t', compile (q.map halfWidth) = .ok t' ∧ t'.mapWords normalize = t) ∧
    (∀ q', (Text.words q').map normalize = (Text.words q).map normalize →
      ∀ t, compile (q.map halfWidth) = .ok t →
        ∃ t', compile (q'.map halfWidth) = .ok t' ∧ t'.shape = t.shape ∧
          t'.mapWords normalize = t.mapWords normalize) ∧
    normalizeQuery (q.map halfWidth) = normalizeQuery q ∧
    ∀ limit ts, tokenize (normalizeQuery q) limit = .ok ts →
      ts.countP (fun t => t.kind = .opening) = q.count '(' ∧
        ts.countP (fun t => t.kind = .closing) = q.count ')' := by
  refine ⟨fun t => parse_normalizeQuery_iff, fun q' hwords t ht => ?_, normalizeQuery_halfWidth q,
    fun limit ts hts => ?_⟩
  · have hnormal : compile (normalizeQuery q) = .ok (t.mapWords normalize) :=
      parse_normalizeQuery_iff.2 ⟨t, ht, rfl⟩
    have hsame : normalizeQuery q' = normalizeQuery q := congrArg (Text.join [' ']) hwords
    rw [← hsame] at hnormal
    obtain ⟨t', ht', hmap⟩ := parse_normalizeQuery_iff.1 hnormal
    refine ⟨t', ht', ?_, hmap⟩
    rw [← Expr.shape_mapWords normalize t', hmap, Expr.shape_mapWords]
  · obtain ⟨hopening, hclosing⟩ := countP_kind_of_scans (scans_of_scan hts)
    rw [hopening, hclosing, count_normalizeQuery q (.inl rfl), count_normalizeQuery q (.inr rfl)]
    exact ⟨rfl, rfl⟩

/-- A full-width `-`, `AND` and letter, wide gaps, and a full-width parenthesis inside a word. -/
theorem compile_full_width_query :
    let q := "－Ａ　ＡＮＤ  (ガ（ ＯＲ c)".toList
    compile (normalizeQuery q) =
        .ok (.and (.not (.word ['a'])) (.or (.word "が（".toList) (.word ['c']))) ∧
      (∃ t, compile ("-a and (が（ or Ｃ) ".toList.map halfWidth) = .ok t ∧
        t.shape = .and (.not (.word [])) (.or (.word []) (.word []))) ∧
      ∃ ts, tokenize (normalizeQuery q) 1 = .ok ts ∧
        ts.countP (fun t => t.kind = .opening) = 1 := by
  intro q
  have hparse : compile (q.map halfWidth) =
      .ok (.and (.not (.word ['A'])) (.or (.word "ガ（".toList) (.word ['c']))) := by
    decide +kernel
  -- the other query has its own blanks and widths, but the same words
  have hwords : (Text.words "-a and (が（ or Ｃ) ".toList).map normalize =
      (Text.words q).map normalize := by decide +kernel
  obtain ⟨hiff, hsame, -, hcount⟩ := compile_normalizeQuery_iff q
  obtain ⟨t, ht, hshape, -⟩ := hsame _ hwords _ hparse
  obtain ⟨ts, hts⟩ : ∃ ts, tokenize (normalizeQuery q) 1 = .ok ts := by
    cases h : tokenize (normalizeQuery q) 1 with
    | ok ts => exact ⟨ts, rfl⟩
    | error f =>
      have hok : (tokenize (normalizeQuery q) 1).isOk := by decide +kernel
      rw [h] at hok
      cases hok
  exact ⟨(hiff _).2 ⟨_, hparse, rfl⟩, ⟨t, ht, hshape⟩, ts, hts, (hcount 1 ts hts).1⟩

end Headline.Query
