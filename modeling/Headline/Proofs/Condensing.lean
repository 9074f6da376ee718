import Headline.Proofs.NormalForm
import Headline.Proofs.Shape

/-!
# Condensed queries

A text is condensed when the gaps between its words shrink to single spaces and its other characters
are rewritten, without changing what the lexer asks about them (`KeepsRoles`). The lexer goes along
a text and its condensed form in step (`scan_condensed`), so the two are parsed to the same tree, up
to the rewriting of words (`parse_condensed_iff`).
-/

namespace Headline.Query

/-! ## Characters -/

/-- Rewriting characters by `g` keeps whatever the lexer asks about them. -/
structure KeepsRoles (g : Char → Char) : Prop where
  isBlank : ∀ c, isBlank (g c) = isBlank c
  mark : ∀ c d, d = '(' ∨ d = ')' ∨ d = '-' → (g c = d ↔ c = d)
  ofWord : ∀ w : Text, TokenKind.ofWord (w.map g) = TokenKind.ofWord w

namespace KeepsRoles

variable {g : Char → Char} (hg : KeepsRoles g)

include hg

theorem isLetter (c : Char) : isLetter (g c) = isLetter c := by
  have hl := hg.mark c '(' (.inl rfl)
  have hr := hg.mark c ')' (.inr (.inl rfl))
  rw [Bool.eq_iff_iff, isLetter_iff, isLetter_iff, hg.isBlank, ne_eq, ne_eq, ne_eq, ne_eq, hl, hr]

theorem before_some (c : Char) : Hyphen.before (some (g c)) = Hyphen.before (some c) := by
  have hh := hg.mark c '-' (.inr (.inr rfl))
  have hr := hg.mark c ')' (.inr (.inl rfl))
  simp only [Hyphen.before, hg.isBlank, hh, hr]

end KeepsRoles

/-! ## Condensed texts -/

/-- The second text is the first one with one space for each gap between words, none at the ends,
and its other characters rewritten by `g`. The flag tells whether a word has to start first: the
place is the beginning, or stands behind a blank. -/
inductive Condenses (g : Char → Char) : Bool → Text → Text → Prop
  | done {b} : Condenses g b [] []
  | keep {b c s t} (hc : isBlank c = false) (h : Condenses g false s t) :
      Condenses g b (c :: s) (g c :: t)
  | skip {c s t} (hc : isBlank c) (h : Condenses g true s t) : Condenses g true (c :: s) t
  | gap {c s t} (hc : isBlank c) (h : Condenses g true s t) :
      Condenses g false (c :: s) (' ' :: t)
  | last {c s} (hc : isBlank c) (h : Condenses g true s []) : Condenses g false (c :: s) []

theorem Condenses.exists_cons {g : Char → Char} {b : Bool} {c : Char} {s t : Text}
    (hc : ¬ isBlank c) (h : Condenses g b (c :: s) t) :
    ∃ t', t = g c :: t' ∧ Condenses g false s t' := by
  cases h with
  | keep _ h => exact ⟨_, rfl, h⟩
  | skip hc' h => exact absurd hc' hc
  | gap hc' h => exact absurd hc' hc
  | last hc' h => exact absurd hc' hc

section Words

variable {c : Char} {s : Text}

theorem wordTail_cons (hc : isLetter c) : wordTail (c :: s) = c :: wordTail s :=
  List.takeWhile_cons_of_pos hc

theorem afterWord_cons (hc : isLetter c) : afterWord (c :: s) = afterWord s :=
  List.dropWhile_cons_of_pos hc

theorem wordTail_of_endsWord (h : EndsWord s) : wordTail s = [] :=
  takeWhile_isLetter_of_endsWord h

theorem afterWord_of_endsWord (h : EndsWord s) : afterWord s = s := by
  have hsplit := wordTail_append_afterWord s
  rwa [wordTail_of_endsWord h, List.nil_append] at hsplit

theorem endsWord_blank (hc : isBlank c) : EndsWord (c :: s) :=
  endsWord_cons (by simp [isLetter, isBoundary, hc])

end Words

section Condensed

variable {g : Char → Char} {s t : Text}

theorem wordTail_condensed (hg : KeepsRoles g) (h : Condenses g false s t) :
    wordTail t = (wordTail s).map g ∧ Condenses g false (afterWord s) (afterWord t) := by
  -- where a word ends on both sides, nothing more of it is read
  have stay : ∀ {s t : Text}, EndsWord s → EndsWord t → Condenses g false s t →
      wordTail t = (wordTail s).map g ∧ Condenses g false (afterWord s) (afterWord t) := by
    intro s t hs ht h
    rw [wordTail_of_endsWord hs, wordTail_of_endsWord ht, afterWord_of_endsWord hs,
      afterWord_of_endsWord ht]
    exact ⟨rfl, h⟩
  induction s generalizing t with
  | nil =>
    cases h
    exact stay endsWord_nil endsWord_nil .done
  | cons c s ih =>
    have hall := h
    cases h with
    | keep hc h =>
      by_cases hletter : isLetter c
      · obtain ⟨htail, hafter⟩ := ih h
        have hletter' : isLetter (g c) := (hg.isLetter c).trans hletter
        rw [wordTail_cons hletter, wordTail_cons hletter', afterWord_cons hletter,
          afterWord_cons hletter', List.map_cons, htail]
        exact ⟨rfl, hafter⟩
      · have hletter := Bool.eq_false_iff.2 hletter
        exact stay (endsWord_cons hletter) (endsWord_cons ((hg.isLetter c).trans hletter)) hall
    | gap hc h => exact stay (endsWord_blank hc) (endsWord_blank rfl) hall
    | last hc h => exact stay (endsWord_blank hc) endsWord_nil hall

/-- A `-` looks at a character of the same role, or at a gap or an end. -/
theorem before_condensed (hg : KeepsRoles g) (h : Condenses g false s t) :
    Hyphen.before t.head? = Hyphen.before s.head? := by
  have blank : ∀ {c : Char}, isBlank c → Hyphen.before (some c) = .dangling := by
    intro c hc
    have hne : c ≠ '-' := by
      rintro rfl
      cases hc
    rw [Hyphen.before, if_neg hne, if_pos (.inl hc)]
  cases h with
  | done => rfl
  | keep hc h => exact hg.before_some _
  | gap hc h => exact (blank rfl).trans (blank hc).symm
  | last hc h => exact (blank hc).symm

end Condensed

/-! ## Scans in step -/

/-- Two scans fail together, or yield the same tokens up to their places, respelled by `g`. -/
def ScansAlike (g : Char → Char) : Except Fault (List Token) → Except Fault (List Token) → Prop
  | .ok ts, .ok us => List.Forall₂ (Token.RespelledBy (List.map g)) ts us
  | .error _, .error _ => True
  | _, _ => False

theorem ScansAlike.cons {g : Char → Char} {x y : Except Fault (List Token)} {t u : Token}
    (ht : t.RespelledBy (List.map g) u) (h : ScansAlike g x y) :
    ScansAlike g ((t :: ·) <$> x) ((u :: ·) <$> y) := by
  cases x with
  | error f =>
    cases y with
    | error f' => trivial
    | ok us => cases h
  | ok ts =>
    cases y with
    | error f' => cases h
    | ok us => exact List.Forall₂.cons ht h

theorem scan_nil (limit : Int) (previous previous' : Option Char) (position position' : Nat)
    (opened : List Nat) :
    scan limit previous position opened [] = scan limit previous' position' opened [] := by
  rw [scan.eq_def, scan.eq_def limit previous']

/-- No term starts behind a letter. -/
theorem startsTerm_of_letters {c : Char} {run : Text} (h : ∀ d ∈ c :: run, isLetter d) :
    startsTerm (c :: run).getLast? = false := by
  rw [Bool.eq_false_iff]
  intro hstart
  have hletter := not_any_isLetter_of_startsTerm hstart
  rw [List.getLast?_eq_some_getLast (List.cons_ne_nil c run), Option.any_some,
    h _ (List.getLast_mem _)] at hletter
  cases hletter

/-- The lexer goes along a text and its condensed form in step. -/
theorem scan_condensed {g : Char → Char} (hg : KeepsRoles g) {limit : Int} {b : Bool} {s t : Text}
    (h : Condenses g b s t) {previous previous' : Option Char} {position position' : Nat}
    {opened opened' : List Nat} (hprevious : startsTerm previous' = startsTerm previous)
    (hb : b = true → startsTerm previous) (hopened : opened'.length = opened.length) :
    ScansAlike g (scan limit previous position opened s)
      (scan limit previous' position' opened' t) := by
  have hopening := fun c => hg.mark c '(' (.inl rfl)
  have hclosing := fun c => hg.mark c ')' (.inr (.inl rfl))
  have hhyphen := fun c => hg.mark c '-' (.inr (.inr rfl))
  -- the induction is on the scan of `s`, which alone takes a step for a blank that is skipped
  fun_induction scan limit previous position opened s
    generalizing b t previous' position' opened' with
  | case1 previous position opened p hp =>
    cases h
    rw [scan.eq_def]
    cases hp' : opened'.getLast? with
    | none =>
      obtain rfl := List.getLast?_eq_none_iff.1 hp'
      obtain rfl := List.length_eq_zero_iff.1 hopened.symm
      cases hp
    | some p' => trivial
  | case2 previous position opened hp =>
    cases h
    obtain rfl := List.getLast?_eq_none_iff.1 hp
    obtain rfl := List.length_eq_zero_iff.1 hopened
    rw [scan.eq_def]
    exact List.Forall₂.nil
  | case3 previous position opened c s hc ih =>
    have hstart : startsTerm (some c) = true := by rw [startsTerm, hc, Bool.true_or]
    cases h with
    | keep hc' h =>
      rw [hc'] at hc
      cases hc
    | skip hc h =>
      exact ih h (hprevious.trans ((hb rfl).trans hstart.symm)) (fun _ => hstart) hopened
    | gap hc h =>
      rw [scan_cons, if_pos (show isBlank ' ' = true from rfl)]
      exact ih h hstart.symm (fun _ => hstart) hopened
    | last hc h =>
      rw [scan_nil limit previous' (some c) position' position']
      exact ih h rfl (fun _ => hstart) hopened
  | case4 previous position opened s hdepth hblank =>
    obtain ⟨t, rfl, hs⟩ := h.exists_cons hblank
    have hmark := (hopening '(').2 rfl
    rw [hmark, scan_cons, if_neg hblank, if_pos rfl, if_pos (by rwa [hopened])]
    trivial
  | case5 previous position opened s hdepth hblank ih =>
    obtain ⟨t, rfl, hs⟩ := h.exists_cons hblank
    have hmark := (hopening '(').2 rfl
    rw [hmark, scan_cons, if_neg hblank, if_pos rfl, if_neg (by rwa [hopened])]
    refine ScansAlike.cons ⟨rfl, by rw [List.map_singleton, hmark]⟩ ?_
    exact ih hs rfl (fun h => by cases h) (congrArg (· + 1) hopened)
  | case6 previous position s hblank hne =>
    obtain ⟨t, rfl, hs⟩ := h.exists_cons hblank
    obtain rfl := List.length_eq_zero_iff.1 hopened
    have hmark := (hclosing ')').2 rfl
    rw [hmark, scan_cons, if_neg hblank, if_neg hne, if_pos rfl]
    trivial
  | case7 previous position s p opened hblank hne ih =>
    obtain ⟨t, rfl, hs⟩ := h.exists_cons hblank
    obtain ⟨p', opened', rfl⟩ := List.exists_cons_of_length_eq_add_one hopened
    have hmark := (hclosing ')').2 rfl
    rw [hmark, scan_cons, if_neg hblank, if_neg hne, if_pos rfl]
    refine ScansAlike.cons ⟨rfl, by rw [List.map_singleton, hmark]⟩ ?_
    exact ih hs rfl (fun h => by cases h) (Nat.succ.inj hopened)
  | case8 previous position opened c s hblank hl hr hdangling =>
    obtain ⟨t, rfl, hs⟩ := h.exists_cons hblank
    have hblank' : ¬ isBlank (g c) := by rwa [hg.isBlank]
    have hl' : g c ≠ '(' := (hopening c).not.2 hl
    have hr' : g c ≠ ')' := (hclosing c).not.2 hr
    have hdangling' : g c = '-' ∧ startsTerm previous' ∧ Hyphen.before t.head? = .dangling := by
      rwa [hhyphen, hprevious, before_condensed hg hs]
    rw [scan_cons, if_neg hblank', if_neg hl', if_neg hr', if_pos hdangling']
    trivial
  | case9 previous position opened c s hblank hl hr hdangling hnegation ih =>
    obtain ⟨t, rfl, hs⟩ := h.exists_cons hblank
    obtain ⟨rfl, hstart, hnext⟩ := hnegation
    have hmark := (hhyphen '-').2 rfl
    have hnext' : Hyphen.before t.head? = .negation := (before_condensed hg hs).trans hnext
    rw [hmark, scan_cons, if_neg hblank, if_neg hl, if_neg hr, if_neg (by rw [hnext']; simp),
      if_pos ⟨rfl, hprevious.trans hstart, hnext'⟩]
    refine ScansAlike.cons ⟨rfl, by rw [List.map_singleton, hmark]⟩ ?_
    exact ih hs rfl (fun h => by cases h) hopened
  | case10 previous position opened c s hblank hl hr hdangling hnegation w =>
    rename_i ih
    obtain ⟨t, rfl, hs⟩ := h.exists_cons hblank
    have hblank' : ¬ isBlank (g c) := by rwa [hg.isBlank]
    have hl' : g c ≠ '(' := (hopening c).not.2 hl
    have hr' : g c ≠ ')' := (hclosing c).not.2 hr
    have hletter : isLetter c := isLetter_iff.2 ⟨Bool.eq_false_iff.2 hblank, hl, hr⟩
    obtain ⟨htail, hafter⟩ := wordTail_condensed hg hs
    have hword : g c :: wordTail t = (c :: wordTail s).map g := by rw [List.map_cons, htail]
    have hletters : ∀ d ∈ c :: wordTail s, isLetter d :=
      List.forall_mem_cons.2 ⟨hletter, fun d hd => isLetter_of_mem_wordTail hd⟩
    have hletters' : ∀ d ∈ g c :: wordTail t, isLetter d :=
      List.forall_mem_cons.2
        ⟨(hg.isLetter c).trans hletter, fun d hd => isLetter_of_mem_wordTail hd⟩
    -- both hyphens stand between the like, so neither is one that the scan treats by itself
    rw [← hhyphen, ← hprevious, ← before_condensed hg hs] at hdangling hnegation
    rw [scan_cons, if_neg hblank', if_neg hl', if_neg hr', if_neg hdangling, if_neg hnegation]
    refine ScansAlike.cons ⟨?_, hword⟩ (ih hafter ?_ (fun h => by cases h) hopened)
    · show TokenKind.ofWord (g c :: wordTail t) = TokenKind.ofWord (c :: wordTail s)
      rw [hword, hg.ofWord]
    · rw [startsTerm_of_letters hletters', startsTerm_of_letters hletters]

/-- A condensed query is parsed to the same tree with its words rewritten. -/
theorem parse_condensed_iff {g : Char → Char} (hg : KeepsRoles g) {s t : Text}
    (h : Condenses g true s t) {limit : Int} {e : Tree} :
    parse t limit = .ok e ↔
      ∃ e', parse s limit = .ok e' ∧ e'.mapWords (List.map g) = e := by
  have halike : ScansAlike g (scan limit none 0 [] s) (scan limit none 0 [] t) :=
    scan_condensed hg h rfl (fun _ => rfl) rfl
  simp only [parse_iff_derivation, ← scan_eq_ok_iff]
  cases hs : scan limit none 0 [] s with
  | error f =>
    cases ht : scan limit none 0 [] t with
    | error f' => simp
    | ok us =>
      rw [hs, ht] at halike
      cases halike
  | ok ts =>
    cases ht : scan limit none 0 [] t with
    | error f' =>
      rw [hs, ht] at halike
      cases halike
    | ok us =>
      rw [hs, ht] at halike
      have htrees := exists_derivation_respelled_iff halike (t := e)
      constructor
      · rintro ⟨d, hd, htree⟩
        obtain ⟨d', hd', htree'⟩ := htrees.1 ⟨d, (Except.ok.inj hd).symm, htree⟩
        exact ⟨_, ⟨d', congrArg Except.ok hd'.symm, rfl⟩, htree'⟩
      · rintro ⟨e', ⟨d', hd', rfl⟩, htree'⟩
        obtain ⟨d, hd, htree⟩ := htrees.2 ⟨d', (Except.ok.inj hd').symm, htree'⟩
        exact ⟨d, congrArg Except.ok hd.symm, htree⟩

/-! ## Words condense a text -/

section Joined

variable {g : Char → Char} {s t : Text}

theorem condenses_dropWhile (h : Condenses g true (s.dropWhile isBlank) t) :
    Condenses g true s t := by
  induction s with
  | nil => exact h
  | cons c s ih =>
    by_cases hc : isBlank c
    · rw [List.dropWhile_cons_of_pos hc] at h
      exact .skip hc (ih h)
    · rwa [List.dropWhile_cons_of_neg hc] at h

theorem condenses_append {run : Text} (hrun : ∀ c ∈ run, isBlank c = false)
    (h : Condenses g false s t) : Condenses g false (run ++ s) (run.map g ++ t) := by
  induction run with
  | nil => exact h
  | cons c run ih =>
    obtain ⟨hc, hrun⟩ := List.forall_mem_cons.1 hrun
    exact .keep hc (ih hrun)

theorem join_space_cons (w : Text) (ws : List Text) :
    Text.join [' '] (w :: ws) = w ++ if ws = [] then [] else ' ' :: Text.join [' '] ws := by
  cases ws with
  | nil => simp [Text.join]
  | cons w' ws => simp [Text.join, List.intercalate_cons_cons]

/-- What condenses at a start condenses behind a word too, if it is parted from it. -/
theorem condenses_behind_word {ws : List Text} (hnil : s = [] → ws = [])
    (hs : ∀ c ∈ s.head?, isBlank c) (h : Condenses g true s (Text.join [' '] ws)) :
    Condenses g false s (if ws = [] then [] else ' ' :: Text.join [' '] ws) := by
  cases s with
  | nil =>
    rw [if_pos (hnil rfl)]
    exact .done
  | cons c s =>
    have hc : isBlank c := hs c rfl
    generalize htext : Text.join [' '] ws = t at h ⊢
    cases h with
    | keep hc' h =>
      rw [hc'] at hc
      cases hc
    | skip _ h =>
      -- blanks at the end of the text leave no gap
      by_cases hws : ws = []
      · subst hws
        subst htext
        exact .last hc h
      · rw [if_neg hws]
        exact .gap hc h

/-- A text condenses to its words with single spaces between them. -/
theorem condenses_join_words (g : Char → Char) (s : Text) :
    Condenses g true s (Text.join [' '] ((Text.words s).map (List.map g))) := by
  fun_induction Text.words s with
  | case1 s h =>
    apply condenses_dropWhile
    rw [h]
    exact .done
  | case2 s c rest h ih =>
    have hc : isBlank c = false := by
      have hhead := List.head?_dropWhile_not isBlank s
      rw [h] at hhead
      simpa using hhead
    have hrun : ∀ d ∈ rest.takeWhile fun d => !isBlank d, isBlank d = false := by
      intro d hd
      simpa using List.mem_takeWhile_imp hd
    have hsplit : rest =
        (rest.takeWhile fun d => !isBlank d) ++ rest.dropWhile fun d => !isBlank d :=
      List.takeWhile_append_dropWhile.symm
    have hstop : ∀ d ∈ (rest.dropWhile fun d => !isBlank d).head?, isBlank d := by
      intro d hd
      have hhead := List.head?_dropWhile_not (fun d => !isBlank d) rest
      rw [hd] at hhead
      simpa using hhead
    -- the blanks in front are dropped, and the run behind them is the first word
    apply condenses_dropWhile
    rw [h]
    generalize (rest.takeWhile fun d => !isBlank d) = run at hrun hsplit ⊢
    generalize (rest.dropWhile fun d => !isBlank d) = behind at hsplit hstop ih ⊢
    subst hsplit
    rw [List.map_cons, join_space_cons]
    refine .keep hc (condenses_append hrun (condenses_behind_word ?_ hstop ih))
    rintro rfl
    simp [Text.words]

end Joined

end Headline.Query
