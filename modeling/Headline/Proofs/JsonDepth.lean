import Headline.Proofs.ReaderEquations

/-!
# How deep JSON nests

A reader has a number of levels for the arrays and objects of a text. More levels change nothing but
what becomes of texts that are too deep (`parseWithin_of_le`), and as many levels as the text has
opening brackets are enough (`fitsWithin_openings`), so a text that is not too deep has the value
that it has without a limit (`parseWithin_eq_parse`). A row of brackets is too deep for fewer levels
(`parseWithin_brackets`).
-/

namespace Headline.Json

variable {α β : Type} {s t : Text}

/-! ## More levels -/

/-- The second result is the first one, unless that is a fault of the depth. -/
inductive Extends {α : Type} : Except Fault α → Except Fault α → Prop
  | tooDeep (c : Container) (y : Except Fault α) : Extends (.error (.tooDeep c)) y
  | same (x : Except Fault α) : Extends x x

theorem Extends.bind {x y : Except Fault α} {f g : α → Except Fault β} (h : Extends x y)
    (hfg : ∀ a, x = .ok a → Extends (f a) (g a)) : Extends (x >>= f) (y >>= g) := by
  cases h with
  | tooDeep c y => exact .tooDeep c _
  | same x =>
    cases x with
    | error f => exact .same _
    | ok a => exact hfg a rfl

/-- A reader that does as another one, or finds a text too deep. -/
def ReadsWithin (read read' : Text → Except Fault (α × Text)) : Prop :=
  ∀ s, Extends (read s) (read' s)

/-- A list extends another one if its items do. -/
theorem readsWithin_list {closing : Char} {item item' : Text → Except Fault (α × Text)}
    {list list' : Text → Except Fault (List α × Text)}
    (hlist : ∀ s, list s =
      item s >>= fun p => behindItem closing p.1 (fun r => list (skip r)) (skip p.2))
    (hlist' : ∀ s, list' s =
      item' s >>= fun p => behindItem closing p.1 (fun r => list' (skip r)) (skip p.2))
    (hshort : ∀ {s a r}, item s = .ok (a, r) → r.length < s.length)
    (hitem : ReadsWithin item item') : ReadsWithin list list' := by
  intro s
  induction hlen : s.length using Nat.strongRecOn generalizing s with
  | _ n ih =>
    rw [hlist, hlist']
    refine (hitem s).bind fun p hp => ?_
    have hlt := hshort hp
    have hle := length_skip_le p.2
    simp only [behindItem]
    split
    · exact .same _
    · split
      · -- the rest of the list is shorter, so it extends as well
        have hmore := length_skip_le ((skip p.2).drop 1)
        rw [List.length_drop] at hmore
        exact (ih _ (by omega) _ rfl).bind fun _ _ => .same _
      · exact .same _

theorem readsWithin_delimited {closing : Char} {list list' : Text → Except Fault (List α × Text)}
    (make : List α → Value) (hlist : ReadsWithin list list') :
    ReadsWithin (delimited closing make list) (delimited closing make list') := by
  intro s
  simp only [delimited]
  split
  · exact .same _
  · exact (hlist _).bind fun _ _ => .same _

section Items

variable {item item' : ValueReader} (hitem : ReadsWithin item.read item'.read)

include hitem

theorem readsWithin_readMember : ReadsWithin (readMember item) (readMember item') := by
  intro s
  rw [readMember_eq, readMember_eq]
  exact (Extends.same _).bind fun p _ => (hitem _).bind fun _ _ => .same _

theorem readsWithin_readArray : ReadsWithin (readArray item) (readArray item') := by
  intro s
  rw [readArray_eq, readArray_eq]
  exact readsWithin_delimited _ (readsWithin_list (readElements_eq item) (readElements_eq item')
    item.shrinks hitem) s

theorem readsWithin_readObject : ReadsWithin (readObject item) (readObject item') := by
  intro s
  rw [readObject_eq, readObject_eq]
  exact readsWithin_delimited _ (readsWithin_list (readMembers_eq item) (readMembers_eq item')
    length_lt_of_readMember (readsWithin_readMember hitem)) s

end Items

/-- What a value begins with decides how it is read: a string, an array, an object, or else a
scalar. -/
theorem readOver_cases {motive : Text → Prop} (string : ∀ s, motive ('"' :: s))
    (array : ∀ s, motive ('[' :: s)) (object : ∀ s, motive ('\x7b' :: s))
    (scalar : ∀ s, (∀ inner, readOver inner s = readScalar s) → motive s) (s : Text) :
    motive s := by
  cases s with
  | nil => exact scalar [] fun _ => rfl
  | cons c s =>
    by_cases hquote : c = '"'
    · exact hquote ▸ string s
    · by_cases hbracket : c = '['
      · exact hbracket ▸ array s
      · by_cases hbrace : c = '\x7b'
        · exact hbrace ▸ object s
        · exact scalar _ fun inner => by simp [readOver, hquote, hbracket, hbrace]

theorem readsWithin_value_succ (levels : Nat) :
    ReadsWithin (value levels).read (value (levels + 1)).read := by
  induction levels with
  | zero =>
    intro s
    show Extends (readOver none s) (readOver (some (value 0)) s)
    induction s using readOver_cases with
    | string s => exact .same _
    -- without a level left, brackets and braces are too deep as soon as they open
    | array s => exact .tooDeep ..
    | object s => exact .tooDeep ..
    | scalar s hs =>
      rw [hs, hs]
      exact .same _
  | succ levels ih =>
    intro s
    show Extends (readOver (some (value levels)) s) (readOver (some (value (levels + 1))) s)
    induction s using readOver_cases with
    | string s => exact .same _
    | array s => exact readsWithin_readArray ih s
    | object s => exact readsWithin_readObject ih s
    | scalar s hs =>
      rw [hs, hs]
      exact .same _

theorem extends_readDocument_succ (levels : Nat) (s : Text) :
    Extends (readDocument levels s) (readDocument (levels + 1) s) := by
  rw [readDocument, readDocument]
  have h := readsWithin_value_succ levels (skip s)
  generalize (value levels).read (skip s) = x, (value (levels + 1)).read (skip s) = y at h
  cases h with
  | tooDeep c y => exact .tooDeep c _
  | same x => exact .same _

/-- The text is not too deep for so many levels. -/
def FitsWithin (levels : Nat) (s : Text) : Prop := ∀ c, parseWithin levels s ≠ .error (.tooDeep c)

theorem parseWithin_succ {levels : Nat} (h : FitsWithin levels s) :
    parseWithin (levels + 1) s = parseWithin levels s := by
  have hextends := extends_readDocument_succ levels s
  revert h
  rw [FitsWithin, parseWithin, parseWithin]
  split
  · exact fun _ => rfl
  · intro h
    generalize readDocument levels s = x, readDocument (levels + 1) s = y at hextends h
    cases hextends with
    | tooDeep c y => exact absurd rfl (h c)
    | same x => rfl

/-- More levels change nothing for a text that is not too deep. -/
theorem parseWithin_of_le {levels more : Nat} (h : FitsWithin levels s) (hle : levels ≤ more) :
    parseWithin more s = parseWithin levels s := by
  obtain ⟨extra, rfl⟩ := Nat.exists_eq_add_of_le hle
  induction extra with
  | zero => rfl
  | succ extra ih =>
    have hsame := ih (Nat.le_add_right ..)
    have hfits : FitsWithin (levels + extra) s := by
      rw [FitsWithin, hsame]
      exact h
    exact (parseWithin_succ hfits).trans hsame

/-! ## Rows of brackets -/

theorem value_brackets (levels : Nat) (s : Text) :
    (value levels).read (List.replicate (levels + 1) '[' ++ s) = .error (.tooDeep .array) := by
  induction levels with
  | zero => rfl
  | succ levels ih =>
    show readArray (value levels) (List.replicate (levels + 1) '[' ++ s) = _
    have hskip : skip (List.replicate (levels + 1) '[' ++ s) =
        List.replicate (levels + 1) '[' ++ s := rfl
    have hend : (List.replicate (levels + 1) '[' ++ s).head? ≠ some ']' := by
      rw [List.replicate_succ, List.cons_append, List.head?_cons]
      decide
    rw [readArray_eq, delimited, hskip, if_neg hend, readElements_eq, ih]
    rfl

/-- A row of brackets is too deep for one level less. -/
theorem parseWithin_brackets (levels : Nat) (s : Text) :
    parseWithin levels (List.replicate (levels + 1) '[' ++ s) = .error (.tooDeep .array) := by
  have hmark : (List.replicate (levels + 1) '[' ++ s).head? ≠ some '\uFEFF' := by
    rw [List.replicate_succ, List.cons_append, List.head?_cons]
    decide
  have hskip : skip (List.replicate (levels + 1) '[' ++ s) =
      List.replicate (levels + 1) '[' ++ s := rfl
  rw [parseWithin, if_neg hmark, readDocument, hskip, value_brackets]
  rfl

/-! ## Enough levels -/

/-- What a reader makes of a text is no fault of the depth, and what it leaves is an end of the
text. -/
structure Shallow (s : Text) (x : Except Fault (α × Text)) : Prop where
  fits : ∀ c, x ≠ .error (.tooDeep c)
  suffix : ∀ a r, x = .ok (a, r) → r <:+ s

namespace Shallow

theorem ok (a : α) {r : Text} (h : r <:+ s) : Shallow s (.ok (a, r)) where
  fits := fun c hc => by cases hc
  suffix := fun b r' hb => by
    cases hb
    exact h

theorem malformed (kind : FaultKind) (left : Nat) :
    Shallow s (.error (.malformed kind left) : Except Fault (α × Text)) where
  fits := fun c hc => by cases hc
  suffix := fun b r' hb => by cases hb

theorem longInteger (digits : Nat) :
    Shallow s (.error (.longInteger digits) : Except Fault (α × Text)) where
  fits := fun c hc => by cases hc
  suffix := fun b r' hb => by cases hb

theorem of_suffix {x : Except Fault (α × Text)} (h : Shallow s x) (hs : s <:+ t) :
    Shallow t x where
  fits := h.fits
  suffix := fun a r hr => (h.suffix a r hr).trans hs

theorem bind {x : Except Fault (α × Text)} {f : α × Text → Except Fault (β × Text)}
    (h : Shallow s x) (hf : ∀ a r, x = .ok (a, r) → r <:+ s → Shallow s (f (a, r))) :
    Shallow s (x >>= f) := by
  cases x with
  | ok p => exact hf p.1 p.2 rfl (h.suffix _ _ rfl)
  | error e =>
    refine ⟨fun c hc => h.fits c ?_, fun a r hr => by cases hr⟩
    exact congrArg Except.error (Except.error.inj hc)

end Shallow

theorem skip_suffix (s : Text) : skip s <:+ s := List.dropWhile_suffix _

theorem shallow_readUnit (s : Text) : Shallow s (readUnit s) := by
  rw [readUnit_eq]
  split
  · exact .malformed ..
  · split
    · exact .malformed ..
    · next c r hr => exact .ok _ (hr ▸ List.drop_suffix 4 s)

theorem shallow_readUnicodeEscape (s : Text) : Shallow s (readUnicodeEscape s) := by
  rw [readUnicodeEscape]
  refine (shallow_readUnit s).bind fun unit r _ hr => ?_
  dsimp only
  split
  · split
    · next more _ =>
      have hmore : more <:+ s := (List.suffix_cons ..).trans ((List.suffix_cons ..).trans hr)
      refine ((shallow_readUnit more).of_suffix hmore).bind fun second after _ hafter => ?_
      dsimp only
      split
      · exact .ok _ hafter
      · exact .ok _ hr
    · exact .ok _ hr
  · split
    · exact .ok _ hr
    · exact .ok _ hr

theorem shallow_readEscape (start : Nat) (s : Text) : Shallow s (readEscape start s) := by
  unfold readEscape
  split
  · exact .malformed ..
  · exact (shallow_readUnicodeEscape _).of_suffix (List.suffix_cons ..)
  · split
    · exact .ok _ (List.suffix_cons ..)
    · exact .malformed ..

theorem shallow_readChars (start : Nat) (s : Text) : Shallow s (readChars start s) := by
  -- an escape takes up several characters, so the induction is on the length
  induction hn : s.length using Nat.strongRecOn generalizing s with
  | _ n ih =>
    cases s with
    | nil =>
      rw [readChars]
      exact .malformed ..
    | cons c s =>
      rw [List.length_cons] at hn
      have htail : s <:+ c :: s := List.suffix_cons ..
      rw [readChars_cons]
      split
      · exact .ok _ htail
      · split
        · refine ((shallow_readEscape start s).of_suffix htail).bind fun d r hd hr => ?_
          have hlt := length_lt_of_readEscape hd
          exact ((ih _ (by omega) r rfl).of_suffix hr).bind fun cs r' _ hr' => .ok _ hr'
        · split
          · exact .malformed ..
          · exact ((ih _ (by omega) s rfl).of_suffix htail).bind fun cs r _ hr => .ok _ hr

theorem shallow_readString (s : Text) : Shallow s (readString s) := by
  rw [readString_eq]
  exact (shallow_readChars ..).bind fun cs r _ hr => .ok _ hr

theorem splitSign_suffix (s : Text) : (splitSign s).2 <:+ s := by
  unfold splitSign
  split
  · exact List.suffix_cons ..
  · exact List.suffix_cons ..
  · exact List.suffix_refl _

theorem splitWhole_suffix (s : Text) : (splitWhole s).2 <:+ s := by
  unfold splitWhole
  split
  · exact List.suffix_cons ..
  · exact List.dropWhile_suffix _

theorem splitFraction_suffix (s : Text) : (splitFraction s).2 <:+ s := by
  unfold splitFraction
  split
  · split
    · exact (List.dropWhile_suffix _).trans ((List.suffix_cons ..).trans (List.suffix_cons ..))
    · exact List.suffix_refl _
  · exact List.suffix_refl _

theorem splitExponent_suffix (s : Text) : (splitExponent s).2.2 <:+ s := by
  unfold splitExponent
  split
  · exact List.suffix_refl _
  · next e r =>
    dsimp only
    split
    · exact (List.dropWhile_suffix _).trans ((splitSign_suffix r).trans (List.suffix_cons ..))
    · exact List.suffix_refl _

theorem shallow_readNumber (s : Text) : Shallow s (readNumber s) := by
  unfold readNumber
  have hunsigned : (if s.head? = some '-' then s.drop 1 else s) <:+ s := by
    split
    · exact List.drop_suffix 1 s
    · exact List.suffix_refl _
  generalize (if s.head? = some '-' then s.drop 1 else s) = u at hunsigned
  have hrest := (splitFraction_suffix _).trans ((splitWhole_suffix u).trans hunsigned)
  dsimp only
  split
  · exact .malformed ..
  · split
    · split
      · exact .longInteger _
      · exact .ok _ ((splitExponent_suffix _).trans hrest)
    · exact .ok _ ((splitExponent_suffix _).trans hrest)

theorem shallow_readScalar (s : Text) : Shallow s (readScalar s) := by
  rw [readScalar]
  split
  · exact .ok _ (List.drop_suffix ..)
  · exact shallow_readNumber s

theorem shallow_readName (s : Text) : Shallow s (readName s) := by
  rw [readName_eq]
  split
  · refine ((shallow_readChars _ _).of_suffix (List.drop_suffix 1 s)).bind fun name r _ hr => ?_
    dsimp only
    split
    · exact .ok _ ((List.drop_suffix 1 _).trans ((skip_suffix r).trans hr))
    · exact .malformed ..
  · exact .malformed ..

/-! ### Counting brackets -/

theorem openings_le_of_suffix {r : Text} (h : r <:+ s) : openings r ≤ openings s :=
  h.sublist.countP_le

/-- A reader that never finds a text with so few opening brackets too deep. -/
def ReadsUpTo (n : Nat) (read : Text → Except Fault (α × Text)) : Prop :=
  ∀ s, openings s ≤ n → Shallow s (read s)

theorem readsUpTo_list {n : Nat} {closing : Char} {item : Text → Except Fault (α × Text)}
    {list : Text → Except Fault (List α × Text)}
    (hlist : ∀ s, list s =
      item s >>= fun p => behindItem closing p.1 (fun r => list (skip r)) (skip p.2))
    (hshort : ∀ {s a r}, item s = .ok (a, r) → r.length < s.length)
    (hitem : ReadsUpTo n item) : ReadsUpTo n list := by
  intro s hs
  induction hlen : s.length using Nat.strongRecOn generalizing s with
  | _ m ih =>
    rw [hlist]
    refine (hitem s hs).bind fun a r ha hr => ?_
    have hlt := hshort ha
    have hle := length_skip_le r
    have hbehind : (skip r).drop 1 <:+ s := (List.drop_suffix 1 _).trans ((skip_suffix r).trans hr)
    simp only [behindItem]
    split
    · exact .ok _ hbehind
    · split
      -- behind the item there are no more openings than in the whole
      · have hmore := length_skip_le ((skip r).drop 1)
        rw [List.length_drop] at hmore
        have hrest := (skip_suffix _).trans hbehind
        have hcount := openings_le_of_suffix hrest
        exact ((ih _ (by omega) _ (by omega) rfl).of_suffix hrest).bind
          fun items r _ hr => .ok _ hr
      · exact .malformed ..

theorem readsUpTo_delimited {n : Nat} {closing : Char}
    {list : Text → Except Fault (List α × Text)} (make : List α → Value)
    (hlist : ReadsUpTo n list) : ReadsUpTo n (delimited closing make list) := by
  intro s hs
  have hcount := openings_le_of_suffix (skip_suffix s)
  simp only [delimited]
  split
  · exact .ok _ ((List.drop_suffix 1 _).trans (skip_suffix s))
  · exact ((hlist _ (by omega)).of_suffix (skip_suffix s)).bind fun items r _ hr => .ok _ hr

section Items

variable {n : Nat} {item : ValueReader} (hitem : ReadsUpTo n item.read)

include hitem

theorem readsUpTo_readMember : ReadsUpTo n (readMember item) := by
  intro s hs
  rw [readMember_eq]
  refine (shallow_readName s).bind fun name r _ hr => ?_
  have hskip := (skip_suffix r).trans hr
  have hcount := openings_le_of_suffix hskip
  exact ((hitem _ (by omega)).of_suffix hskip).bind fun v r' _ hr' => .ok _ hr'

theorem readsUpTo_readArray : ReadsUpTo n (readArray item) := by
  intro s hs
  rw [readArray_eq]
  exact readsUpTo_delimited _ (readsUpTo_list (readElements_eq item) item.shrinks hitem) s hs

theorem readsUpTo_readObject : ReadsUpTo n (readObject item) := by
  intro s hs
  rw [readObject_eq]
  exact readsUpTo_delimited _ (readsUpTo_list (readMembers_eq item) length_lt_of_readMember
    (readsUpTo_readMember hitem)) s hs

end Items

/-- Each opening bracket takes one level at most. -/
theorem readsUpTo_value (levels : Nat) : ReadsUpTo levels (value levels).read := by
  induction levels with
  | zero =>
    intro s
    show openings s ≤ 0 → Shallow s (readOver none s)
    induction s using readOver_cases with
    | string s => exact fun _ => (shallow_readString s).of_suffix (List.suffix_cons ..)
    | array s =>
      intro hs
      -- one opening is too many for no level
      rw [openings, List.countP_cons_of_pos rfl] at hs
      omega
    | object s =>
      intro hs
      rw [openings, List.countP_cons_of_pos rfl] at hs
      omega
    | scalar s hs =>
      rw [hs]
      exact fun _ => shallow_readScalar s
  | succ levels ih =>
    intro s
    show openings s ≤ levels + 1 → Shallow s (readOver (some (value levels)) s)
    induction s using readOver_cases with
    | string s => exact fun _ => (shallow_readString s).of_suffix (List.suffix_cons ..)
    | array s =>
      intro hs
      -- the opening at the front takes up a level of its own
      rw [openings, List.countP_cons_of_pos rfl, Nat.add_le_add_iff_right] at hs
      exact (readsUpTo_readArray ih s hs).of_suffix (List.suffix_cons ..)
    | object s =>
      intro hs
      rw [openings, List.countP_cons_of_pos rfl, Nat.add_le_add_iff_right] at hs
      exact (readsUpTo_readObject ih s hs).of_suffix (List.suffix_cons ..)
    | scalar s hs =>
      rw [hs]
      exact fun _ => shallow_readScalar s

theorem fitsWithin_of_openings_le {levels : Nat} (h : openings s ≤ levels) :
    FitsWithin levels s := by
  intro c
  have hcount := openings_le_of_suffix (skip_suffix s)
  have hread := readsUpTo_value levels _ (Nat.le_trans hcount h)
  rw [parseWithin]
  split
  · exact fun hc => by cases hc
  · rw [readDocument]
    generalize (value levels).read (skip s) = x at hread
    cases x with
    | ok p =>
      dsimp only
      split
      · exact fun hc => by cases hc
      · exact fun hc => by cases hc
    | error f =>
      -- there are levels for all openings, so none of them is too deep
      cases f with
      | tooDeep c' => exact absurd rfl (hread.fits c')
      | malformed | longInteger => exact fun hc => by cases hc

/-- Without a limit, no text is too deep. -/
theorem fitsWithin_openings (s : Text) : FitsWithin (openings s) s :=
  fitsWithin_of_openings_le (Nat.le_refl _)

/-- A text that is not too deep has the value, or the fault, that it has without a limit. -/
theorem parseWithin_eq_parse {levels : Nat} (h : FitsWithin levels s) :
    parseWithin levels s = parse s := by
  rw [parse]
  rcases Nat.le_total levels (openings s) with hle | hle
  · exact (parseWithin_of_le h hle).symm
  · exact parseWithin_of_le (fitsWithin_openings s) hle

end Headline.Json
