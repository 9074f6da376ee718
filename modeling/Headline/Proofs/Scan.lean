import Headline.Proofs.Nesting
import Headline.Query.Lexer
import Mathlib.Data.List.TakeWhile

/-!
# Scans of a query

What a successful scan does, said once: `Scans` has one rule for each kind of step, with the word of
a word step spelled out. `scan_eq_ok_iff` ties it to the lexer, and facts about tokens follow by
induction over its rules. `within_of_scans`: groups open within the limit. `Tiles`: tokens cover the
text from left to right, and only blanks stand between them.
-/

namespace Headline.Query

/-! ## Letters -/

/-- A character that words are made of. -/
def isLetter (c : Char) : Bool := !isBoundary c

theorem isLetter_iff {c : Char} : isLetter c ↔ isBlank c = false ∧ c ≠ '(' ∧ c ≠ ')' := by
  simp [isLetter, isBoundary, and_assoc]

/-- A word in front of `s` has come to its end. -/
def EndsWord (s : Text) : Prop := ∀ c rest, s = c :: rest → isLetter c = false

theorem endsWord_nil : EndsWord [] := by
  intro c rest h
  cases h

theorem endsWord_cons {c : Char} {s : Text} (hc : isLetter c = false) : EndsWord (c :: s) := by
  intro d rest h
  obtain ⟨rfl, -⟩ := List.cons_eq_cons.1 h
  exact hc

theorem isLetter_of_mem_wordTail {c : Char} {s : Text} (h : c ∈ wordTail s) : isLetter c :=
  List.mem_takeWhile_imp h

theorem endsWord_afterWord (s : Text) : EndsWord (afterWord s) := by
  intro c rest h
  have := List.head?_dropWhile_not isLetter s
  rw [show s.dropWhile isLetter = c :: rest from h] at this
  simpa using this

theorem wordTail_append_afterWord (s : Text) : wordTail s ++ afterWord s = s :=
  List.takeWhile_append_dropWhile

theorem takeWhile_isLetter_of_endsWord {s : Text} (h : EndsWord s) : s.takeWhile isLetter = [] := by
  cases s with
  | nil => rfl
  | cons c s => rw [List.takeWhile_cons_of_neg (by rw [h c s rfl]; exact Bool.false_ne_true)]

theorem wordTail_append {run s : Text} (hrun : ∀ d ∈ run, isLetter d) (hs : EndsWord s) :
    wordTail (run ++ s) = run := by
  show (run ++ s).takeWhile isLetter = run
  rw [List.takeWhile_append_of_pos hrun, takeWhile_isLetter_of_endsWord hs, List.append_nil]

theorem afterWord_append {run s : Text} (hrun : ∀ d ∈ run, isLetter d) (hs : EndsWord s) :
    afterWord (run ++ s) = s := by
  have h := wordTail_append_afterWord (run ++ s)
  rw [wordTail_append hrun hs] at h
  exact List.append_cancel_left h

/-! ## Steps -/

/-- The lexer reads a text to its end and yields tokens. It stands at `position` behind `previous`,
inside the groups of `opened`. -/
inductive Scans (limit : Int) :
    Option Char → Nat → List Nat → Text → List Token → Prop
  | done {previous position} : Scans limit previous position [] [] []
  | blank {previous position opened c s ts} (hc : isBlank c)
      (h : Scans limit (some c) (position + 1) opened s ts) :
      Scans limit previous position opened (c :: s) ts
  | opening {previous position opened s ts} (hdepth : (opened.length : Int) + 1 ≤ limit)
      (h : Scans limit (some '(') (position + 1) (position :: opened) s ts) :
      Scans limit previous position opened ('(' :: s) (⟨.opening, ['('], position⟩ :: ts)
  | closing {previous position p opened s ts}
      (h : Scans limit (some ')') (position + 1) opened s ts) :
      Scans limit previous position (p :: opened) (')' :: s) (⟨.closing, [')'], position⟩ :: ts)
  | negation {previous position opened s ts} (hprevious : startsTerm previous)
      (hnext : Hyphen.before s.head? = .negation)
      (h : Scans limit (some '-') (position + 1) opened s ts) :
      Scans limit previous position opened ('-' :: s) (⟨.not, ['-'], position⟩ :: ts)
  | word {previous position opened c run s ts} (hc : isLetter c) (hrun : ∀ d ∈ run, isLetter d)
      (hs : EndsWord s)
      (hhyphen : c = '-' → startsTerm previous → Hyphen.before (run ++ s).head? = .letter)
      (h : Scans limit (c :: run).getLast? (position + (c :: run).length) opened s ts) :
      Scans limit previous position opened (c :: (run ++ s))
        (⟨.ofWord (c :: run), c :: run, position⟩ :: ts)

theorem map_eq_ok {α β : Type} {f : α → β} {x : Except Fault α} {b : β} (h : f <$> x = .ok b) :
    ∃ a, x = .ok a ∧ f a = b := by
  cases x with
  | error e => cases h
  | ok a =>
    cases h
    exact ⟨a, rfl, rfl⟩

theorem map_eq_error {α β : Type} {g : α → β} {x : Except Fault α} {f : Fault}
    (h : g <$> x = .error f) : x = .error f := by
  cases x with
  | error e =>
    cases h
    rfl
  | ok a => cases h

theorem scans_of_scan {limit : Int} {previous : Option Char} {position : Nat} {opened : List Nat}
    {s : Text} {ts : List Token} (h : scan limit previous position opened s = .ok ts) :
    Scans limit previous position opened s ts := by
  fun_induction scan limit previous position opened s generalizing ts with
  | case1 => cases h
  | case2 previous position opened hopened =>
    cases h
    rw [List.getLast?_eq_none_iff.1 hopened]
    exact .done
  | case3 previous position opened c s hc ih => exact .blank hc (ih h)
  | case4 => cases h
  | case5 previous position opened s hdepth hblank ih =>
    obtain ⟨ts, hts, rfl⟩ := map_eq_ok h
    exact .opening (Int.not_lt.1 hdepth) (ih hts)
  | case6 => cases h
  | case7 previous position s p opened hblank hne ih =>
    obtain ⟨ts, hts, rfl⟩ := map_eq_ok h
    exact .closing (ih hts)
  | case8 => cases h
  | case9 previous position opened c s hblank hl hr hdangling hnegation ih =>
    obtain ⟨ts, hts, rfl⟩ := map_eq_ok h
    obtain ⟨rfl, hprevious, hnext⟩ := hnegation
    exact .negation hprevious hnext (ih hts)
  | case10 previous position opened c s hblank hl hr hdangling hnegation w =>
    rename_i ih
    obtain ⟨ts, hts, rfl⟩ := map_eq_ok h
    have hword : Scans limit previous position opened (c :: (wordTail s ++ afterWord s))
        (⟨.ofWord (c :: wordTail s), c :: wordTail s, position⟩ :: ts) := by
      refine .word ?_ (fun d hd => isLetter_of_mem_wordTail hd) (endsWord_afterWord s) ?_ (ih hts)
      · exact isLetter_iff.2 ⟨Bool.eq_false_iff.2 hblank, hl, hr⟩
      · intro hc hprevious
        rw [wordTail_append_afterWord]
        -- neither of the other readings of the hyphen has applied
        cases hb : Hyphen.before s.head? with
        | negation => exact absurd ⟨hc, hprevious, hb⟩ hnegation
        | dangling => exact absurd ⟨hc, hprevious, hb⟩ hdangling
        | letter => rfl
    rwa [wordTail_append_afterWord] at hword

/-- The lexer's choice at a character, whatever groups are open. -/
theorem scan_cons (limit : Int) (previous : Option Char) (position : Nat) (opened : List Nat)
    (c : Char) (s : Text) :
    scan limit previous position opened (c :: s) =
      if isBlank c then scan limit (some c) (position + 1) opened s
      else if c = '(' then
        if limit < opened.length + 1 then .error (.tooDeep limit position)
        else
          (⟨.opening, [c], position⟩ :: ·) <$>
            scan limit (some c) (position + 1) (position :: opened) s
      else if c = ')' then
        match opened with
        | [] => .error (.unmatchedClosing position)
        | _ :: opened =>
          (⟨.closing, [c], position⟩ :: ·) <$> scan limit (some c) (position + 1) opened s
      else if c = '-' ∧ startsTerm previous ∧ Hyphen.before s.head? = .dangling then
        .error (.danglingNot position)
      else if c = '-' ∧ startsTerm previous ∧ Hyphen.before s.head? = .negation then
        (⟨.not, [c], position⟩ :: ·) <$> scan limit (some c) (position + 1) opened s
      else
        (⟨.ofWord (c :: wordTail s), c :: wordTail s, position⟩ :: ·) <$>
          scan limit (c :: wordTail s).getLast? (position + (c :: wordTail s).length) opened
            (afterWord s) := by
  cases opened <;> exact scan.eq_def ..

theorem scan_of_scans {limit : Int} {previous : Option Char} {position : Nat} {opened : List Nat}
    {s : Text} {ts : List Token} (h : Scans limit previous position opened s ts) :
    scan limit previous position opened s = .ok ts := by
  induction h with
  | done => rw [scan.eq_def]; rfl
  | blank hc h ih => rw [scan_cons, if_pos hc, ih]
  | opening hdepth h ih =>
    rw [scan_cons, if_neg (by decide), if_pos rfl, if_neg (Int.not_lt.2 hdepth), ih]
    rfl
  | closing h ih =>
    rw [scan_cons, if_neg (by decide), if_neg (by decide), if_pos rfl]
    simp only [ih]
    rfl
  | negation hprevious hnext h ih =>
    rw [scan_cons, if_neg (by decide), if_neg (by decide), if_neg (by decide),
      if_neg (by rw [hnext]; simp), if_pos ⟨rfl, hprevious, hnext⟩, ih]
    rfl
  | @word previous position opened c run s ts hc hrun hs hhyphen h ih =>
    obtain ⟨hblank, hl, hr⟩ := isLetter_iff.1 hc
    -- a hyphen that begins a word is none of those that are treated by themselves
    have letter : ∀ k, k ≠ .letter →
        ¬ (c = '-' ∧ startsTerm previous ∧ Hyphen.before (run ++ s).head? = k) := by
      rintro k hk ⟨hc, hprevious, rfl⟩
      exact hk (hhyphen hc hprevious)
    rw [scan_cons, if_neg (by rw [hblank]; exact Bool.false_ne_true), if_neg hl, if_neg hr,
      if_neg (letter _ (by decide)), if_neg (letter _ (by decide)), wordTail_append hrun hs,
      afterWord_append hrun hs, ih]
    rfl

/-- A scan succeeds just when the rules lead through the text. -/
theorem scan_eq_ok_iff {limit : Int} {previous : Option Char} {position : Nat} {opened : List Nat}
    {s : Text} {ts : List Token} :
    scan limit previous position opened s = .ok ts ↔ Scans limit previous position opened s ts :=
  ⟨scans_of_scan, scan_of_scans⟩

/-! ## Nesting -/

theorem ofWord_cases (w : Text) :
    TokenKind.ofWord w = .word ∨ TokenKind.ofWord w = .and ∨ TokenKind.ofWord w = .or := by
  simp only [TokenKind.ofWord]
  split
  · exact .inr (.inl rfl)
  · split
    · exact .inr (.inr rfl)
    · exact .inl rfl

theorem ofWord_ne_opening (w : Text) : TokenKind.ofWord w ≠ .opening := by
  rcases ofWord_cases w with h | h | h <;> simp [h]

theorem ofWord_ne_closing (w : Text) : TokenKind.ofWord w ≠ .closing := by
  rcases ofWord_cases w with h | h | h <;> simp [h]

/-- A scan opens groups within its limit, those that are open already counted in. -/
theorem within_of_scans {limit : Int} {previous : Option Char} {position : Nat} {opened : List Nat}
    {s : Text} {ts : List Token} (h : Scans limit previous position opened s ts) :
    tokenBrackets.Within (limit - opened.length) ts := by
  induction h with
  | done => exact Brackets.within_nil _
  | blank hc h ih => exact ih
  | opening hdepth h ih =>
    rw [Brackets.within_cons, height_token_of_opening rfl]
    -- for all behind it the parenthesis is one more group that is open
    refine ⟨fun _ => by omega, ih.mono ?_⟩
    simp only [List.length_cons]
    omega
  | closing h ih =>
    rw [Brackets.within_cons, height_token_of_closing rfl]
    refine ⟨fun hopens => absurd hopens (by simp [tokenBrackets]), ih.mono ?_⟩
    simp only [List.length_cons]
    omega
  | negation hprevious hnext h ih =>
    rw [within_cons_of_other (by simp) (by simp)]
    exact ih
  | word hc hrun hs hhyphen h ih =>
    rw [within_cons_of_other (ofWord_ne_opening _) (ofWord_ne_closing _)]
    exact ih

/-! ## Tiling -/

/-- Tokens cover a text that stands at a position, from left to right, up to some blanks. -/
inductive Tiles : Nat → Text → List Token → Prop
  | done {position} : Tiles position [] []
  | blank {position c s ts} (hc : isBlank c) (h : Tiles (position + 1) s ts) :
      Tiles position (c :: s) ts
  | token {t s ts} (hne : t.spelling ≠ []) (hblank : ∀ c ∈ t.spelling, isBlank c = false)
      (h : Tiles (t.position + t.spelling.length) s ts) :
      Tiles t.position (t.spelling ++ s) (t :: ts)

/-- Whether the spelling of a token covers a place. -/
def Token.Covers (t : Token) (i : Nat) : Prop :=
  t.position ≤ i ∧ i < t.position + t.spelling.length

theorem tiles_of_scans {limit : Int} {previous : Option Char} {position : Nat} {opened : List Nat}
    {s : Text} {ts : List Token} (h : Scans limit previous position opened s ts) :
    Tiles position s ts := by
  induction h with
  | done => exact .done
  | blank hc h ih => exact .blank hc ih
  | @opening _ position _ _ _ hdepth h ih =>
    exact .token (t := ⟨.opening, ['('], position⟩) (by simp) (by simp; decide) ih
  | @closing _ position _ _ _ _ h ih =>
    exact .token (t := ⟨.closing, [')'], position⟩) (by simp) (by simp; decide) ih
  | @negation _ position _ _ _ hprevious hnext h ih =>
    exact .token (t := ⟨.not, ['-'], position⟩) (by simp) (by simp; decide) ih
  | @word _ position _ c run _ _ hc hrun hs hhyphen h ih =>
    have hletters : ∀ d ∈ c :: run, isLetter d := List.forall_mem_cons.2 ⟨hc, hrun⟩
    exact .token (t := ⟨.ofWord (c :: run), c :: run, position⟩) (by simp)
      (fun d hd => (isLetter_iff.1 (hletters d hd)).1) ih

namespace Tiles

variable {position : Nat} {s : Text} {ts : List Token}

theorem le_position (h : Tiles position s ts) : ∀ t ∈ ts, position ≤ t.position := by
  induction h with
  | done => intro t ht; cases ht
  | blank hc h ih => exact fun t ht => Nat.le_of_succ_le (ih t ht)
  | token hne hblank h ih =>
    intro t ht
    rcases List.mem_cons.1 ht with rfl | ht
    · exact Nat.le_refl _
    · exact Nat.le_trans (Nat.le_add_right _ _) (ih t ht)

theorem spelling_ne_nil (h : Tiles position s ts) : ∀ t ∈ ts, t.spelling ≠ [] := by
  induction h with
  | done => intro t ht; cases ht
  | blank hc h ih => exact ih
  | token hne hblank h ih =>
    intro t ht
    rcases List.mem_cons.1 ht with rfl | ht
    · exact hne
    · exact ih t ht

/-- Spans stand one after the other. -/
theorem pairwise_spans (h : Tiles position s ts) :
    ts.Pairwise fun a b => a.position + a.spelling.length ≤ b.position := by
  induction h with
  | done => exact .nil
  | blank hc h ih => exact ih
  | token hne hblank h ih => exact .cons (fun t ht => h.le_position t ht) ih

theorem pairwise_positions (h : Tiles position s ts) :
    ts.Pairwise fun a b => a.position < b.position := by
  refine List.Pairwise.imp_of_mem (fun {a b} ha _ hab => ?_) h.pairwise_spans
  have := List.length_pos_iff.2 (h.spelling_ne_nil a ha)
  omega

/-- A token is spelled as the text reads at its place. -/
theorem take_drop_position (h : Tiles position s ts) :
    ∀ t ∈ ts, (s.drop (t.position - position)).take t.spelling.length = t.spelling := by
  induction h with
  | done => intro t ht; cases ht
  | @blank position c s ts hc h ih =>
    intro t ht
    -- behind a blank all places are one further on
    have hle := h.le_position t ht
    rw [show t.position - position = (t.position - (position + 1)) + 1 by omega,
      List.drop_succ_cons]
    exact ih t ht
  | @token t s ts hne hblank h ih =>
    intro t' ht'
    rcases List.mem_cons.1 ht' with rfl | ht'
    · rw [Nat.sub_self, List.drop_zero, List.take_left]
    · have hle := h.le_position t' ht'
      rw [show t'.position - t.position =
          t.spelling.length + (t'.position - (t.position + t.spelling.length)) by omega,
        ← List.drop_drop, List.drop_left]
      exact ih t' ht'

/-- Between the tokens stand blanks. -/
theorem isBlank_of_uncovered (h : Tiles position s ts) {i : Nat} {c : Char} (hi : s[i]? = some c)
    (hcover : ∀ t ∈ ts, ¬ t.Covers (position + i)) : isBlank c := by
  induction h generalizing i with
  | done => simp at hi
  | blank hc h ih =>
    cases i with
    | zero =>
      obtain rfl := Option.some.inj hi
      exact hc
    | succ i =>
      refine ih hi fun t ht => ?_
      have := hcover t ht
      rwa [Nat.add_right_comm, Nat.add_assoc]
  | @token t s ts hne hblank h ih =>
    -- the place is not one of this token, so it lies behind it
    have houtside : t.spelling.length ≤ i := by
      by_contra hlt
      exact hcover t (List.mem_cons_self ..) ⟨Nat.le_add_right _ _, by omega⟩
    rw [List.getElem?_append_right houtside] at hi
    refine ih hi fun t' ht' => ?_
    have := hcover t' (List.mem_cons_of_mem _ ht')
    rwa [show t.position + t.spelling.length + (i - t.spelling.length) = t.position + i by omega]

/-- The spellings in a row are the text without its blanks. -/
theorem flatMap_spelling (h : Tiles position s ts) :
    ts.flatMap Token.spelling = Text.dropBlanks s := by
  induction h with
  | done => rfl
  | blank hc h ih =>
    rw [ih, Text.dropBlanks, Text.dropBlanks, List.filter_cons_of_neg (by simp [hc])]
  | @token t s ts hne hblank h ih =>
    have hkeep : t.spelling.filter (fun c => !isBlank c) = t.spelling :=
      List.filter_eq_self.2 fun c hc => by rw [hblank c hc]; rfl
    rw [List.flatMap_cons, ih, Text.dropBlanks, Text.dropBlanks, List.filter_append, hkeep]

end Tiles

end Headline.Query
