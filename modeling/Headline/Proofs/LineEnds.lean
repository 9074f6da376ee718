import Mathlib.Data.List.Find
import Headline.Proofs.ReaderEquations
import Headline.Text.Newline

/-!
# Line ends in JSON

A JSON text may end its lines in any way: writing every line end as a line feed changes neither its
value nor, if it has none, the kind of its fault (`parseWithin_alike`). Each reader takes both texts
apart in step (`ReadsAlike`). Between the parts of a text line ends are white space, and in a string
they are control characters in any form, which is a fault.
-/

namespace Headline

/-! ## Texts with other line ends -/

/-- The second text is the first one, with some of its line ends written as a line feed. -/
inductive Text.Relined : Text → Text → Prop
  | nil : Relined [] []
  | keep (c : Char) {s t : Text} : Relined s t → Relined (c :: s) (c :: t)
  | single {s t : Text} : Relined s t → Relined ('\r' :: s) ('\n' :: t)
  | double {s t : Text} : Relined s t → Relined ('\r' :: '\n' :: s) ('\n' :: t)

namespace Text

theorem relined_unifyNewlines (s : Text) : Relined s (unifyNewlines s) := by
  fun_induction unifyNewlines s with
  | case1 => exact .nil
  | case2 s ih => exact .double ih
  | case3 s _ ih => exact .single ih
  | case4 c s _ _ ih => exact .keep c ih

namespace Relined

variable {s t : Text}

theorem head?_eq_some_iff (h : Relined s t) {c : Char} (hr : c ≠ '\r') (hn : c ≠ '\n') :
    s.head? = some c ↔ t.head? = some c := by
  cases h with
  | nil => rfl
  | keep d h => rfl
  | single h | double h => simp [hr.symm, hn.symm]

theorem tail (h : Relined s t) {c : Char} (hr : c ≠ '\r') (hs : s.head? = some c) :
    Relined (s.drop 1) (t.drop 1) := by
  cases h with
  | nil => exact .nil
  | keep d h => exact h
  | single h | double h => exact absurd (Option.some.inj hs).symm hr

/-- Two such texts have the same first characters, unless a line end is among them. -/
theorem take_or (h : Relined s t) (n : Nat) :
    s.take n = t.take n ∧ Relined (s.drop n) (t.drop n) ∨ '\r' ∈ s.take n ∧ '\n' ∈ t.take n := by
  induction n generalizing s t with
  | zero => exact .inl ⟨rfl, h⟩
  | succ n ih =>
    cases h with
    | nil => exact .inl ⟨rfl, .nil⟩
    | keep c h =>
      rcases ih h with ⟨htake, hdrop⟩ | ⟨hs, ht⟩
      · exact .inl ⟨congrArg (c :: ·) htake, hdrop⟩
      · exact .inr ⟨List.mem_cons_of_mem _ hs, List.mem_cons_of_mem _ ht⟩
    | single h | double h => exact .inr ⟨List.mem_cons_self .., List.mem_cons_self ..⟩

/-- A word without line ends stands in front of both texts, with such texts behind it, or of
neither. -/
theorem strip_or (h : Relined s t) {w : Text} (hw : '\r' ∉ w ∧ '\n' ∉ w) :
    (∃ s' t', s = w ++ s' ∧ t = w ++ t' ∧ Relined s' t') ∨ ¬ w <+: s ∧ ¬ w <+: t := by
  rcases h.take_or w.length with ⟨htake, hdrop⟩ | ⟨hs, ht⟩
  · have hpre : w <+: s ↔ w <+: t := by
      rw [List.prefix_iff_eq_take, List.prefix_iff_eq_take, htake]
    by_cases hs : w <+: s
    · exact .inl ⟨_, _, (List.prefix_iff_eq_append.1 hs).symm,
        (List.prefix_iff_eq_append.1 (hpre.1 hs)).symm, hdrop⟩
    · exact .inr ⟨hs, fun ht => hs (hpre.2 ht)⟩
  · refine .inr ⟨fun h' => hw.1 ?_, fun h' => hw.2 ?_⟩
    · rwa [List.prefix_iff_eq_take.1 h']
    · rwa [List.prefix_iff_eq_take.1 h']

/-- Where line ends stop a run, the runs at the front are the same. -/
theorem takeWhile_eq {p : Char → Bool} (hr : p '\r' = false) (hn : p '\n' = false)
    (h : Relined s t) : s.takeWhile p = t.takeWhile p := by
  induction h with
  | nil => rfl
  | keep c h ih => rw [List.takeWhile_cons, List.takeWhile_cons, ih]
  | single h ih | double h ih =>
    rw [List.takeWhile_cons_of_neg (by simp [hr]), List.takeWhile_cons_of_neg (by simp [hn])]

theorem dropWhile {p : Char → Bool} (hr : p '\r' = false) (hn : p '\n' = false)
    (h : Relined s t) : Relined (s.dropWhile p) (t.dropWhile p) := by
  induction h with
  | nil => exact .nil
  | keep c h ih =>
    by_cases hc : p c
    · rwa [List.dropWhile_cons_of_pos hc, List.dropWhile_cons_of_pos hc]
    · rw [List.dropWhile_cons_of_neg hc, List.dropWhile_cons_of_neg hc]
      exact .keep c h
  | single h ih =>
    -- a line end is not dropped in either form
    rw [List.dropWhile_cons_of_neg (by simp [hr]), List.dropWhile_cons_of_neg (by simp [hn])]
    exact .single h
  | double h ih =>
    rw [List.dropWhile_cons_of_neg (by simp [hr]), List.dropWhile_cons_of_neg (by simp [hn])]
    exact .double h

end Relined

end Text

namespace Json

open Text (Relined)

variable {s t : Text}

/-- Line ends are white space, so all of them go. -/
theorem relined_skip (h : Relined s t) : Relined (skip s) (skip t) := by
  induction h with
  | nil => exact .nil
  | keep c h ih =>
    by_cases hc : isSpace c
    · rwa [skip, skip, List.dropWhile_cons_of_pos hc, List.dropWhile_cons_of_pos hc]
    · rw [skip, skip, List.dropWhile_cons_of_neg hc, List.dropWhile_cons_of_neg hc]
      exact .keep c h
  | single h ih | double h ih => exact ih

/-! ## Results of readers -/

/-- Two faults that differ in their place alone. -/
inductive Fault.Alike : Fault → Fault → Prop
  | malformed (kind : FaultKind) (m n : Nat) : Alike (.malformed kind m) (.malformed kind n)
  | longInteger (n : Nat) : Alike (.longInteger n) (.longInteger n)
  | tooDeep (c : Container) : Alike (.tooDeep c) (.tooDeep c)

/-- A reader has read the same from both texts, and what follows differs in its line ends alone; or
both have the same kind of fault. -/
inductive ReadsAlike {α : Type} : Except Fault (α × Text) → Except Fault (α × Text) → Prop
  | ok (a : α) {r r' : Text} : Relined r r' → ReadsAlike (.ok (a, r)) (.ok (a, r'))
  | error {f f' : Fault} : f.Alike f' → ReadsAlike (.error f) (.error f')

/-- Readers in a row. What the first one has left is at hand for the second one. -/
theorem ReadsAlike.bind {α β : Type} {x y : Except Fault (α × Text)}
    {f g : α × Text → Except Fault (β × Text)} (h : ReadsAlike x y)
    (hfg : ∀ a r r', x = .ok (a, r) → Relined r r' → ReadsAlike (f (a, r)) (g (a, r'))) :
    ReadsAlike (x >>= f) (y >>= g) := by
  cases h with
  | ok a hr => exact hfg a _ _ rfl hr
  | error hf => exact .error hf

/-! ## Strings -/

theorem mapM_hexValue?_eq_none {ds : Text} {c : Char} (hc : c ∈ ds) (h : hexValue? c = none) :
    ds.mapM hexValue? = none := by
  induction ds with
  | nil => cases hc
  | cons d ds ih =>
    rw [List.mapM_cons]
    rcases List.mem_cons.1 hc with rfl | hc
    · rw [h]
      rfl
    · rw [ih hc]
      cases hexValue? d <;> rfl

theorem readUnit_alike (h : Relined s t) : ReadsAlike (readUnit s) (readUnit t) := by
  rw [readUnit_eq, readUnit_eq]
  -- no line end is among the four characters, or there are no four digits in either text
  rcases h.take_or 4 with ⟨htake, hdrop⟩ | ⟨hs, ht⟩
  · rw [htake]
    cases (t.take 4).mapM hexValue? with
    | none => exact .error (.malformed ..)
    | some ds =>
      generalize s.drop 4 = r, t.drop 4 = r' at hdrop
      cases hdrop with
      | nil => exact .error (.malformed ..)
      | keep c h => exact .ok _ (.keep c h)
      | single h => exact .ok _ (.single h)
      | double h => exact .ok _ (.double h)
  · rw [mapM_hexValue?_eq_none hs rfl, mapM_hexValue?_eq_none ht rfl]
    exact .error (.malformed ..)

theorem readUnicodeEscape_alike (h : Relined s t) :
    ReadsAlike (readUnicodeEscape s) (readUnicodeEscape t) := by
  rw [readUnicodeEscape, readUnicodeEscape]
  refine (readUnit_alike h).bind fun unit r r' _ hr => ?_
  dsimp only
  split
  · -- the second half of the character, if it follows at once
    rcases hr.strip_or (w := ['\\', 'u']) (by simp) with ⟨more, more', rfl, rfl, hmore⟩ | ⟨hr₁, hr₂⟩
    · refine (readUnit_alike hmore).bind fun second after after' _ hafter => ?_
      dsimp only
      split
      · exact .ok _ hafter
      · exact .ok _ hr
    · split
      · exact absurd ⟨_, rfl⟩ hr₁
      · split
        · exact absurd ⟨_, rfl⟩ hr₂
        · exact .ok _ hr
  · split
    · exact .ok _ hr
    · exact .ok _ hr

theorem readEscape_alike (h : Relined s t) (start start' : Nat) :
    ReadsAlike (readEscape start s) (readEscape start' t) := by
  cases h with
  | nil => exact .error (.malformed ..)
  | @keep c s t h =>
    by_cases hu : c = 'u'
    · subst hu
      exact readUnicodeEscape_alike h
    · simp only [readEscape]
      cases plainEscape? c with
      | none => exact .error (.malformed ..)
      | some d => exact .ok d h
  | single h | double h => exact .error (.malformed ..)

theorem readChars_alike (h : Relined s t) (start start' : Nat) :
    ReadsAlike (readChars start s) (readChars start' t) := by
  induction hn : s.length using Nat.strongRecOn generalizing s t with
  | _ n ih =>
    cases h with
    | nil =>
      rw [readChars, readChars]
      exact .error (.malformed ..)
    | @keep c s t h =>
      rw [readChars_cons, readChars_cons]
      rw [List.length_cons] at hn
      split
      · exact .ok _ h
      · split
        · refine (readEscape_alike h start start').bind fun d r r' hd hr => ?_
          have hshort := length_lt_of_readEscape hd
          exact (ih r.length (by omega) hr rfl).bind fun cs _ _ _ hr => .ok _ hr
        · split
          · exact .error (.malformed ..)
          · exact (ih s.length (by omega) h rfl).bind fun cs _ _ _ hr => .ok _ hr
    | single h | double h =>
      -- a line end is a control character in either form
      rw [readChars_cons start, readChars_cons start']
      exact .error (.malformed ..)

/-! ## Numbers and words -/

theorem splitSign_alike (h : Relined s t) :
    (splitSign s).1 = (splitSign t).1 ∧ Relined (splitSign s).2 (splitSign t).2 := by
  cases h with
  | nil => exact ⟨rfl, .nil⟩
  | @keep c s t h =>
    by_cases hminus : c = '-'
    · subst hminus
      exact ⟨rfl, h⟩
    · by_cases hplus : c = '+'
      · subst hplus
        exact ⟨rfl, h⟩
      · have hnone : ∀ r, splitSign (c :: r) = (false, c :: r) :=
          fun r => by simp [splitSign, hminus, hplus]
        rw [hnone, hnone]
        exact ⟨rfl, .keep c h⟩
  | single h => exact ⟨rfl, .single h⟩
  | double h => exact ⟨rfl, .double h⟩

theorem splitWhole_alike (h : Relined s t) :
    (splitWhole s).1 = (splitWhole t).1 ∧ Relined (splitWhole s).2 (splitWhole t).2 := by
  cases h with
  | nil => exact ⟨rfl, .nil⟩
  | @keep c s t h =>
    by_cases hc : c = '0'
    · subst hc
      exact ⟨rfl, h⟩
    · have hdigits : ∀ r, splitWhole (c :: r) =
          ((c :: r).takeWhile Char.isDigit, (c :: r).dropWhile Char.isDigit) :=
        fun r => by simp [splitWhole, hc]
      rw [hdigits, hdigits]
      exact ⟨(h.keep c).takeWhile_eq rfl rfl, (h.keep c).dropWhile rfl rfl⟩
  | single h => exact ⟨rfl, .single h⟩
  | double h => exact ⟨rfl, .double h⟩

theorem splitFraction_alike (h : Relined s t) :
    (splitFraction s).1 = (splitFraction t).1 ∧
      Relined (splitFraction s).2 (splitFraction t).2 := by
  cases h with
  | nil => exact ⟨rfl, .nil⟩
  | @keep c s t h =>
    by_cases hc : c = '.'
    · subst hc
      cases h with
      | nil => exact ⟨rfl, .keep _ .nil⟩
      | @keep d s t h =>
        simp only [splitFraction]
        split
        · exact ⟨congrArg (d :: ·) (h.takeWhile_eq rfl rfl), h.dropWhile rfl rfl⟩
        · exact ⟨rfl, .keep _ (.keep d h)⟩
      | single h => exact ⟨rfl, .keep _ (.single h)⟩
      | double h => exact ⟨rfl, .keep _ (.double h)⟩
    · have hnone : ∀ r, splitFraction (c :: r) = ([], c :: r) :=
        fun r => by simp [splitFraction, hc]
      rw [hnone, hnone]
      exact ⟨rfl, .keep c h⟩
  | single h => exact ⟨rfl, .single h⟩
  | double h => exact ⟨rfl, .double h⟩

theorem any_isDigit_head?_eq (h : Relined s t) :
    s.head?.any Char.isDigit = t.head?.any Char.isDigit := by
  cases h <;> rfl

theorem splitExponent_alike (h : Relined s t) :
    (splitExponent s).1 = (splitExponent t).1 ∧ (splitExponent s).2.1 = (splitExponent t).2.1 ∧
      Relined (splitExponent s).2.2 (splitExponent t).2.2 := by
  cases h with
  | nil => exact ⟨rfl, rfl, .nil⟩
  | @keep c s t h =>
    obtain ⟨hsign, hrest⟩ := splitSign_alike h
    simp only [splitExponent, any_isDigit_head?_eq hrest]
    split
    · exact ⟨hsign, hrest.takeWhile_eq rfl rfl, hrest.dropWhile rfl rfl⟩
    · exact ⟨rfl, rfl, .keep c h⟩
  | single h => exact ⟨rfl, rfl, .single h⟩
  | double h => exact ⟨rfl, rfl, .double h⟩

theorem readNumber_alike (h : Relined s t) : ReadsAlike (readNumber s) (readNumber t) := by
  have hsign : s.head? = some '-' ↔ t.head? = some '-' :=
    h.head?_eq_some_iff (by decide) (by decide)
  have hunsigned : Relined (if s.head? = some '-' then s.drop 1 else s)
      (if t.head? = some '-' then t.drop 1 else t) := by
    by_cases hminus : s.head? = some '-'
    · rw [if_pos hminus, if_pos (hsign.1 hminus)]
      exact h.tail (by decide) hminus
    · rwa [if_neg hminus, if_neg fun ht => hminus (hsign.2 ht)]
  unfold readNumber
  generalize (if s.head? = some '-' then s.drop 1 else s) = u,
    (if t.head? = some '-' then t.drop 1 else t) = v at hunsigned
  -- each part of a number ends in front of a line end
  obtain ⟨hwhole, hrest⟩ := splitWhole_alike hunsigned
  obtain ⟨hfraction, hrest⟩ := splitFraction_alike hrest
  obtain ⟨hsmall, hpower, hrest⟩ := splitExponent_alike hrest
  simp only [hsign, hwhole, hfraction, hsmall, hpower]
  split
  · exact .error (.malformed ..)
  · split
    · split
      · exact .error (.longInteger _)
      · exact .ok _ hrest
    · exact .ok _ hrest
-- a literal holds no line end, so it stands in front of both texts or of neither

theorem readScalar_alike (h : Relined s t) : ReadsAlike (readScalar s) (readScalar t) := by
  have hplain : ∀ l ∈ literals, '\r' ∉ l.1 ∧ '\n' ∉ l.1 := by decide
  have hsame : ∀ l ∈ literals, l.1.isPrefixOf s = l.1.isPrefixOf t := by
    intro l hl
    rw [Bool.eq_iff_iff, List.isPrefixOf_iff_prefix, List.isPrefixOf_iff_prefix]
    rcases h.strip_or (hplain l hl) with ⟨s', t', rfl, rfl, -⟩ | ⟨hs, ht⟩
    · exact iff_of_true ⟨s', rfl⟩ ⟨t', rfl⟩
    · exact iff_of_false hs ht
  rw [readScalar, readScalar, List.find?_congr hsame]
  split
  · next l hl =>
    have hmem := List.mem_of_find?_eq_some hl
    have hpre : l.1 <+: t := List.isPrefixOf_iff_prefix.1 (by simpa using List.find?_some hl)
    rcases h.strip_or (hplain l hmem) with ⟨s', t', rfl, rfl, h'⟩ | ⟨-, ht⟩
    · rw [List.drop_left, List.drop_left]
      exact .ok _ h'
    · exact absurd hpre ht
  · exact readNumber_alike h

/-! ## Arrays and objects -/

/-- A reader that takes texts with other line ends apart in the same way. -/
def IgnoresLineEnds {α : Type} (read : Text → Except Fault (α × Text)) : Prop :=
  ∀ s t : Text, Relined s t → ReadsAlike (read s) (read t)

/-- A list ignores line ends if its items do. -/
theorem ignoresLineEnds_list {α : Type} {closing : Char} (hr : closing ≠ '\r') (hn : closing ≠ '\n')
    {item : Text → Except Fault (α × Text)} {list : Text → Except Fault (List α × Text)}
    (hlist : ∀ s, list s =
      item s >>= fun p => behindItem closing p.1 (fun r => list (skip r)) (skip p.2))
    (hshort : ∀ {s a r}, item s = .ok (a, r) → r.length < s.length) (hitem : IgnoresLineEnds item) :
    IgnoresLineEnds list := by
  intro s t h
  induction hlen : s.length using Nat.strongRecOn generalizing s t with
  | _ n ih =>
    rw [hlist, hlist]
    refine (hitem s t h).bind fun a r r' ha hrest => ?_
    have hlt := hshort ha
    have hskip := relined_skip hrest
    have hend := hskip.head?_eq_some_iff hr hn
    have hcomma := hskip.head?_eq_some_iff (c := ',') (by decide) (by decide)
    simp only [behindItem, hend, hcomma]
    split
    -- the rest of the list is shorter, and its texts are alike again
    · next hc => exact .ok _ (hskip.tail hr (hend.2 hc))
    · split
      · next hc =>
        have hmore := relined_skip (hskip.tail (by decide) (hcomma.2 hc))
        have hle := length_skip_le ((skip r).drop 1)
        have hle' := length_skip_le r
        rw [List.length_drop] at hle
        exact (ih _ (by omega) _ _ hmore rfl).bind fun items _ _ _ hrest => .ok _ hrest
      · exact .error (.malformed ..)

theorem ignoresLineEnds_delimited {α : Type} {closing : Char} (hr : closing ≠ '\r')
    (hn : closing ≠ '\n') {list : Text → Except Fault (List α × Text)} (make : List α → Value)
    (hlist : IgnoresLineEnds list) : IgnoresLineEnds (delimited closing make list) := by
  intro s t h
  have hskip := relined_skip h
  have hend := hskip.head?_eq_some_iff hr hn
  simp only [delimited, hend]
  split
  · next hc => exact .ok _ (hskip.tail hr (hend.2 hc))
  · exact (hlist _ _ hskip).bind fun items _ _ _ hrest => .ok _ hrest

theorem ignoresLineEnds_readName : IgnoresLineEnds readName := by
  intro s t h
  have hquote := h.head?_eq_some_iff (c := '"') (by decide) (by decide)
  simp only [readName_eq, hquote]
  split
  · next hc =>
    refine (readChars_alike (h.tail (by decide) (hquote.2 hc)) _ _).bind fun name r r' _ hrest => ?_
    have hskip := relined_skip hrest
    have hcolon := hskip.head?_eq_some_iff (c := ':') (by decide) (by decide)
    simp only [hcolon]
    split
    · next hc => exact .ok _ (hskip.tail (by decide) (hcolon.2 hc))
    · exact .error (.malformed ..)
  · exact .error (.malformed ..)

section Items

variable {item : ValueReader} (hitem : IgnoresLineEnds item.read)

include hitem

theorem ignoresLineEnds_readMember : IgnoresLineEnds (readMember item) := by
  intro s t h
  rw [readMember_eq, readMember_eq]
  refine (ignoresLineEnds_readName s t h).bind fun name r r' _ hrest => ?_
  exact (hitem _ _ (relined_skip hrest)).bind fun v _ _ _ hrest => .ok _ hrest

theorem ignoresLineEnds_readArray : IgnoresLineEnds (readArray item) := by
  have hlist : IgnoresLineEnds (readElements item) :=
    ignoresLineEnds_list (by decide) (by decide) (readElements_eq item) item.shrinks hitem
  intro s t h
  rw [readArray_eq, readArray_eq]
  exact ignoresLineEnds_delimited (by decide) (by decide) _ hlist s t h

theorem ignoresLineEnds_readObject : IgnoresLineEnds (readObject item) := by
  have hlist : IgnoresLineEnds (readMembers item) :=
    ignoresLineEnds_list (by decide) (by decide) (readMembers_eq item) length_lt_of_readMember
      (ignoresLineEnds_readMember hitem)
  intro s t h
  rw [readObject_eq, readObject_eq]
  exact ignoresLineEnds_delimited (by decide) (by decide) _ hlist s t h

end Items

/-! ## Values and documents -/

theorem ignoresLineEnds_readString : IgnoresLineEnds readString := by
  intro s t h
  rw [readString_eq, readString_eq]
  exact (readChars_alike h _ _).bind fun cs _ _ _ hrest => .ok _ hrest

theorem ignoresLineEnds_readOver {inner : Option ValueReader}
    (hinner : ∀ item ∈ inner, IgnoresLineEnds item.read) : IgnoresLineEnds (readOver inner) := by
  intro s t h
  have hscalar := readScalar_alike h
  cases h with
  | nil => exact hscalar
  | single h | double h => exact hscalar
  | @keep c s t h =>
    by_cases hquote : c = '"'
    · subst hquote
      exact ignoresLineEnds_readString s t h
    · by_cases hbracket : c = '['
      · subst hbracket
        cases inner with
        | none => exact .error (.tooDeep .array)
        | some item => exact ignoresLineEnds_readArray (hinner item rfl) s t h
      · by_cases hbrace : c = '\x7b'
        · subst hbrace
          cases inner with
          | none => exact .error (.tooDeep .object)
          | some item => exact ignoresLineEnds_readObject (hinner item rfl) s t h
        · have heq : ∀ r, readOver inner (c :: r) = readScalar (c :: r) :=
            fun r => by simp [readOver, hquote, hbracket, hbrace]
          rw [heq, heq]
          exact hscalar

theorem ignoresLineEnds_value (levels : Nat) : IgnoresLineEnds (value levels).read := by
  induction levels with
  | zero => exact ignoresLineEnds_readOver fun item hitem => by cases hitem
  | succ levels ih =>
    refine ignoresLineEnds_readOver fun item hitem => ?_
    obtain rfl := Option.some.inj hitem
    exact ih

/-- Two errors that differ in their place alone. -/
inductive Error.Alike : Error → Error → Prop
  | malformed (kind : FaultKind) (line line' column column' offset offset' : Nat) :
    Alike (.syntaxError kind line column offset) (.syntaxError kind line' column' offset')
  | longInteger (digits : Nat) : Alike (.longInteger digits) (.longInteger digits)
  | tooDeep (c : Container) : Alike (.tooDeep c) (.tooDeep c)

theorem Fault.Alike.within {f f' : Fault} (h : f.Alike f') (s t : Text) :
    (f.within s).Alike (f'.within t) := by
  cases h with
  | malformed kind m n => exact .malformed ..
  | longInteger n => exact .longInteger n
  | tooDeep c => exact .tooDeep c

theorem readDocument_alike (levels : Nat) (h : Relined s t) :
    (∃ v, readDocument levels s = .ok v ∧ readDocument levels t = .ok v) ∨
      ∃ f f', readDocument levels s = .error f ∧ readDocument levels t = .error f' ∧
        f.Alike f' := by
  rw [readDocument, readDocument]
  have hread := ignoresLineEnds_value levels _ _ (relined_skip h)
  generalize (value levels).read (skip s) = x, (value levels).read (skip t) = y at hread
  cases hread with
  | error hf => exact .inr ⟨_, _, rfl, rfl, hf⟩
  | @ok v r r' hrest =>
    have hskip := relined_skip hrest
    dsimp only
    -- whatever is left behind the value is too much in both texts
    generalize skip r = q, skip r' = q' at hskip
    cases hskip with
    | nil => exact .inl ⟨v, rfl, rfl⟩
    | keep c h => exact .inr ⟨_, _, rfl, rfl, .malformed ..⟩
    | single h => exact .inr ⟨_, _, rfl, rfl, .malformed ..⟩
    | double h => exact .inr ⟨_, _, rfl, rfl, .malformed ..⟩

/-- Line ends matter neither to the value of a text nor to the kind of its fault. -/
theorem parseWithin_alike (levels : Nat) (h : Relined s t) :
    (∃ v, parseWithin levels s = .ok v ∧ parseWithin levels t = .ok v) ∨
      ∃ e e', parseWithin levels s = .error e ∧ parseWithin levels t = .error e' ∧
        e.Alike e' := by
  have hmark := h.head?_eq_some_iff (c := '\uFEFF') (by decide) (by decide)
  rw [parseWithin, parseWithin]
  by_cases hs : s.head? = some '\uFEFF'
  · rw [if_pos hs, if_pos (hmark.1 hs)]
    exact .inr ⟨_, _, rfl, rfl, (Fault.Alike.malformed ..).within s t⟩
  · rw [if_neg hs, if_neg fun ht => hs (hmark.2 ht)]
    rcases readDocument_alike levels h with ⟨v, hs, ht⟩ | ⟨f, f', hs, ht, hf⟩
    · rw [hs, ht]
      exact .inl ⟨v, rfl, rfl⟩
    · rw [hs, ht]
      exact .inr ⟨_, _, rfl, rfl, hf.within s t⟩

end Json

end Headline
