import Headline.Proofs.Composition
import Headline.Proofs.Lexemes
import Headline.Proofs.Parentheses

/-!
# Lexical faults

What the lexer cannot get past can be told place by place: from the groups that the text in front of
the place leaves open, and from the two neighbours (`faultAt`). The lexer reports the first such
place, and only if there is none the first parenthesis that is left open.

`complaint` goes over a query one character at a time with the places of the open groups. The lexer
agrees with it (`diagnosis?_scan`), since nothing is wrong inside a word (`complaint_run`), and
going over places where nothing is wrong it comes to the first one where something is
(`complaintFrom_zero`).
-/

namespace Headline.Query

/-! ## Faulty places -/

/-- What is wrong with a character between these neighbours, inside `depth` open groups, in the
wording for it. -/
def refusal (limit : Int) (previous : Option Char) (depth : Nat) (c : Char) (next : Option Char) :
    Option Text :=
  if c = ')' ∧ depth = 0 then some "Unmatched ')'".toList
  else if c = '(' ∧ limit ≤ depth then
    some ("Parentheses nested deeper than ".toList ++ Text.ofInt limit ++ " levels".toList)
  else if c = '-' ∧ previous.all (fun d => isBlank d || d == '(') ∧
      next.all (fun d => isBlank d || d == ')') then
    some "'-' must be directly followed by a term".toList
  else none

/-- What is wrong at place `i` of a query. -/
def faultAt (limit : Int) (q : Text) (i : Nat) : Option Text :=
  q[i]?.bind fun c =>
    refusal limit (q.take i).getLast? (leftOpen 0 (q.take i)).length c q[i + 1]?

/-! ## Complaints -/

/-- The first thing wrong with the rest of a query, which stands at `position` behind `previous` and
inside the groups that have been opened at `opened`. -/
def complaint (limit : Int) :
    (previous : Option Char) → (position : Nat) → (opened : List Nat) → Text → Option Diagnosis
  | _, _, opened, [] => opened.getLast?.map fun p : Nat => ⟨"Unmatched '('".toList, p⟩
  | previous, position, opened, c :: s =>
    match refusal limit previous opened.length c s.head? with
    | some message => some ⟨message, position⟩
    | none => complaint limit (some c) (position + 1) (opensBehind position c opened) s

/-- What there is to report about a result. -/
def diagnosis? {α : Type} : Except Fault α → Option Diagnosis
  | .ok _ => none
  | .error f => some f.diagnosis

section Steps

variable {limit : Int} {previous : Option Char} {position : Nat} {opened : List Nat} {c : Char}
  {s : Text}

theorem complaint_of_refusal {message : Text}
    (h : refusal limit previous opened.length c s.head? = some message) :
    complaint limit previous position opened (c :: s) = some ⟨message, position⟩ := by
  rw [complaint, h]

theorem complaint_of_none (h : refusal limit previous opened.length c s.head? = none) :
    complaint limit previous position opened (c :: s) =
      complaint limit (some c) (position + 1) (opensBehind position c opened) s := by
  rw [complaint, h]

theorem before_eq_dangling_iff (next : Option Char) :
    Hyphen.before next = .dangling ↔ next.all fun d => isBlank d || d == ')' := by
  cases next with
  | none => simp [Hyphen.before]
  | some d =>
    by_cases hd : d = '-'
    · subst hd
      decide
    · simp only [Hyphen.before, if_neg hd]
      split
      · next h => simpa using h
      · next h => simpa using h

/-! ### Refused characters -/

theorem refusal_opening_of_lt {depth : Nat} (h : limit < depth + 1) (previous next : Option Char) :
    refusal limit previous depth '(' next =
      some ("Parentheses nested deeper than ".toList ++ Text.ofInt limit ++ " levels".toList) := by
  rw [refusal, if_neg fun h => absurd h.1 (by decide), if_pos ⟨rfl, Int.lt_add_one_iff.1 h⟩]

theorem refusal_opening_of_le {depth : Nat} (h : ¬ limit < depth + 1)
    (previous next : Option Char) : refusal limit previous depth '(' next = none := by
  rw [refusal, if_neg fun h => absurd h.1 (by decide),
    if_neg fun h' => h (Int.lt_add_one_iff.2 h'.2), if_neg fun h => absurd h.1 (by decide)]

theorem refusal_closing_zero (previous next : Option Char) :
    refusal limit previous 0 ')' next = some "Unmatched ')'".toList := if_pos ⟨rfl, rfl⟩

theorem refusal_closing_succ (depth : Nat) (previous next : Option Char) :
    refusal limit previous (depth + 1) ')' next = none := by
  rw [refusal, if_neg fun h => Nat.succ_ne_zero _ h.2, if_neg fun h => absurd h.1 (by decide),
    if_neg fun h => absurd h.1 (by decide)]

/-- Apart from parentheses, only a `-` is refused that dangles for the lexer. -/
theorem refusal_of_dangling {next : Option Char}
    (h : c = '-' ∧ startsTerm previous ∧ Hyphen.before next = .dangling) (depth : Nat) :
    refusal limit previous depth c next =
      some "'-' must be directly followed by a term".toList := by
  rw [before_eq_dangling_iff, startsTerm_eq_all] at h
  obtain ⟨rfl, hneighbours⟩ := h
  rw [refusal, if_neg fun h => absurd h.1 (by decide), if_neg fun h => absurd h.1 (by decide),
    if_pos ⟨rfl, hneighbours⟩]

theorem refusal_of_not_dangling {next : Option Char} (hopen : c ≠ '(') (hclose : c ≠ ')')
    (h : ¬ (c = '-' ∧ startsTerm previous ∧ Hyphen.before next = .dangling)) (depth : Nat) :
    refusal limit previous depth c next = none := by
  rw [before_eq_dangling_iff, startsTerm_eq_all] at h
  rw [refusal, if_neg fun h => hclose h.1, if_neg fun h => hopen h.1, if_neg h]

/-- Inside a run of letters nothing is wrong. -/
theorem complaint_run (hc : isLetter c) {run : Text} (hrun : ∀ d ∈ run, isLetter d) :
    complaint limit (some c) position opened (run ++ s) =
      complaint limit (c :: run).getLast? (position + run.length) opened s := by
  induction run generalizing c position with
  | nil => rfl
  | cons d run ih =>
    obtain ⟨hd, hrest⟩ := List.forall_mem_cons.1 hrun
    obtain ⟨-, hl, hr⟩ := isLetter_iff.1 hd
    -- behind a letter no term starts, so no hyphen in the run is refused
    have hstart : startsTerm (some c) = false := by
      have := isLetter_iff.1 hc
      simp [startsTerm, this]
    have hnone : refusal limit (some c) opened.length d (run ++ s).head? = none :=
      refusal_of_not_dangling hl hr (fun h => by rw [hstart] at h; cases h.2.1) _
    rw [List.cons_append, complaint_of_none hnone, opensBehind, if_neg hl, if_neg hr, ih hd hrest,
      List.getLast?_cons_cons, List.length_cons]
    congr 1
    omega

end Steps

theorem diagnosis?_map {α β : Type} (g : α → β) (r : Except Fault α) :
    diagnosis? (g <$> r) = diagnosis? r := by
  cases r <;> rfl

/-- The lexer reports the first complaint. -/
theorem diagnosis?_scan (limit : Int) (previous : Option Char) (position : Nat)
    (opened : List Nat) (s : Text) :
    diagnosis? (scan limit previous position opened s) =
      complaint limit previous position opened s := by
  fun_induction scan limit previous position opened s with
  | case1 previous position opened p hp => rw [complaint, hp]; rfl
  | case2 previous position opened hp => rw [complaint, hp]; rfl
  | case3 previous position opened c s hc ih =>
    obtain ⟨hl, hr⟩ := ne_paren_of_isBlank hc
    have hhyphen : c ≠ '-' := by rintro rfl; cases hc
    have hnone : refusal limit previous opened.length c s.head? = none :=
      refusal_of_not_dangling hl hr (fun h => hhyphen h.1) _
    rw [ih, complaint_of_none hnone, opensBehind, if_neg hl, if_neg hr]
  | case4 previous position opened s hdepth =>
    rw [complaint_of_refusal (refusal_opening_of_lt hdepth ..)]
    rfl
  | case5 previous position opened s hdepth hblank ih =>
    rw [diagnosis?_map, ih, complaint_of_none (refusal_opening_of_le hdepth ..)]
    rfl
  | case6 previous position s =>
    rw [complaint_of_refusal (refusal_closing_zero ..)]
    rfl
  | case7 previous position s p opened hblank hne ih =>
    rw [diagnosis?_map, ih, complaint_of_none (refusal_closing_succ ..)]
    rfl
  | case8 previous position opened c s hblank hl hr hdangling =>
    rw [complaint_of_refusal (refusal_of_dangling hdangling _)]
    rfl
  | case9 previous position opened c s hblank hl hr hdangling hnegation ih =>
    rw [diagnosis?_map, ih, complaint_of_none (refusal_of_not_dangling hl hr hdangling _),
      opensBehind, if_neg hl, if_neg hr]
  | case10 previous position opened c s hblank hl hr hdangling hnegation w ih =>
    have hc : isLetter c := isLetter_iff.2 ⟨Bool.eq_false_iff.2 hblank, hl, hr⟩
    have hrun : complaint limit (some c) (position + 1) opened (wordTail s ++ afterWord s) =
        complaint limit w.getLast? (position + 1 + (wordTail s).length) opened (afterWord s) :=
      complaint_run hc fun d hd => isLetter_of_mem_wordTail hd
    -- the scan takes the word in one step, the complaint takes it letter by letter
    have hposition : position + 1 + (wordTail s).length = position + w.length := by
      rw [List.length_cons]
      omega
    rw [wordTail_append_afterWord, hposition] at hrun
    rw [diagnosis?_map, ih, complaint_of_none (refusal_of_not_dangling hl hr hdangling _),
      opensBehind, if_neg hl, if_neg hr, hrun]

/-! ## Places -/

section Places

variable {limit : Int} {q : Text} {i : Nat}

/-- The lexer's view of a query from place `i` on. -/
def complaintFrom (limit : Int) (q : Text) (i : Nat) : Option Diagnosis :=
  complaint limit (q.take i).getLast? i (openedBehind [] 0 (q.take i)) (q.drop i)

/-- Behind part of a query those groups are open that the part leaves open. -/
theorem openedBehind_nil (s : Text) : openedBehind [] 0 s = (leftOpen 0 s).reverse := by
  rw [openedBehind_eq, List.drop_nil, List.append_nil]

theorem faultAt_eq (hi : i < q.length) :
    faultAt limit q i =
      refusal limit (q.take i).getLast? (openedBehind [] 0 (q.take i)).length q[i]
        (q.drop (i + 1)).head? := by
  rw [faultAt, List.getElem?_eq_getElem hi, openedBehind_nil, List.length_reverse, List.head?_drop]
  rfl

theorem lt_length_of_faultAt {message : Text} (h : faultAt limit q i = some message) :
    i < q.length := by
  obtain ⟨c, hc, -⟩ := Option.bind_eq_some_iff.1 h
  exact (List.getElem?_eq_some_iff.1 hc).1

/-- A place where something is wrong is reported. -/
theorem complaintFrom_of_faultAt {message : Text} (h : faultAt limit q i = some message) :
    complaintFrom limit q i = some ⟨message, i⟩ := by
  have hi := lt_length_of_faultAt h
  rw [faultAt_eq hi] at h
  rw [complaintFrom, List.drop_eq_getElem_cons hi, complaint_of_refusal h]

/-- A place where nothing is wrong is passed. -/
theorem complaintFrom_succ (hi : i < q.length) (h : faultAt limit q i = none) :
    complaintFrom limit q i = complaintFrom limit q (i + 1) := by
  have htake : q.take (i + 1) = q.take i ++ [q[i]] := List.take_succ_eq_append_getElem hi
  rw [faultAt_eq hi] at h
  rw [complaintFrom, List.drop_eq_getElem_cons hi, complaint_of_none h, complaintFrom, htake,
    List.getLast?_concat, openedBehind_concat, Nat.zero_add, List.length_take_of_le hi.le]

/-- The first places where something may be wrong, as long as there is nothing wrong. -/
theorem complaintFrom_zero (hi : i ≤ q.length) (h : ∀ j < i, faultAt limit q j = none) :
    complaintFrom limit q 0 = complaintFrom limit q i := by
  induction i with
  | zero => rfl
  | succ i ih =>
    rw [ih (Nat.le_of_succ_le hi) fun j hj => h j (Nat.lt_succ_of_lt hj)]
    exact complaintFrom_succ hi (h i (Nat.lt_succ_self i))

/-- At the end, the first parenthesis is reported that is left open. -/
theorem complaintFrom_length :
    complaintFrom limit q q.length =
      (leftOpen 0 q).head?.map fun p : Nat => ⟨"Unmatched '('".toList, p⟩ := by
  rw [complaintFrom, List.take_length, List.drop_length, complaint, openedBehind_nil,
    List.getLast?_reverse]

theorem diagnosis?_tokenize : diagnosis? (tokenize q limit) = complaintFrom limit q 0 :=
  diagnosis?_scan limit none 0 [] q

theorem exists_error_of_diagnosis? {α : Type} {r : Except Fault α} {d : Diagnosis}
    (h : diagnosis? r = some d) : ∃ f, r = .error f ∧ f.diagnosis = d := by
  cases r with
  | error f => exact ⟨f, rfl, Option.some.inj h⟩
  | ok a => cases h

theorem exists_ok_of_diagnosis? {α : Type} {r : Except Fault α} (h : diagnosis? r = none) :
    ∃ a, r = .ok a := by
  cases r with
  | error f => cases h
  | ok a => exact ⟨a, rfl⟩

theorem head?_leftOpen {p : Nat} (hp : Unclosed q p) (hfirst : ∀ j < p, ¬ Unclosed q j) :
    (leftOpen 0 q).head? = some p := by
  have hpairwise := pairwise_leftOpen 0 q
  have hmem := unclosed_iff_mem.1 hp
  cases h : leftOpen 0 q with
  | nil =>
    rw [h] at hmem
    cases hmem
  | cons first rest =>
    rw [h] at hmem hpairwise
    rcases List.mem_cons.1 hmem with rfl | hrest
    · rfl
    · have hunclosed : Unclosed q first :=
        unclosed_iff_mem.2 (by rw [h]; exact List.mem_cons_self ..)
      exact absurd hunclosed (hfirst first ((List.pairwise_cons.1 hpairwise).1 p hrest))

end Places

/-! ## Tokens -/

/-- A scan closes all groups, those that are open in front of it and its own. -/
theorem descends_of_scans {limit : Int} {previous : Option Char} {position : Nat}
    {opened : List Nat} {s : Text} {ts : List Token}
    (h : Scans limit previous position opened s ts) :
    tokenBrackets.Descends opened.length ts := by
  induction h with
  | done => exact Brackets.descends_nil.2 rfl
  | blank hc h ih => exact ih
  | opening hdepth h ih =>
    rw [Brackets.descends_cons, height_token_of_opening rfl]
    exact ⟨Int.natCast_nonneg _, ih⟩
  | @closing _ _ _ opened _ _ h ih =>
    rw [Brackets.descends_cons, height_token_of_closing rfl, List.length_cons]
    refine ⟨Int.natCast_nonneg _, ?_⟩
    rwa [show ((opened.length + 1 : Nat) : Int) + -1 = opened.length by omega]
  | negation hprevious hnext h ih =>
    rw [Brackets.descends_cons, height_token_of_other (by simp) (by simp), Int.add_zero]
    exact ⟨Int.natCast_nonneg _, ih⟩
  | word hc hrun hs hhyphen h ih =>
    rw [Brackets.descends_cons,
      height_token_of_other (ofWord_ne_opening _) (ofWord_ne_closing _), Int.add_zero]
    exact ⟨Int.natCast_nonneg _, ih⟩

/-- The lexer reports the first place of a query where something is wrong: a `)` outside all groups,
a `(` inside too many, a `-` that starts a term and touches none. If there is no such place, it
reports the first `(` that is left open. Otherwise it succeeds, and then the parentheses among its
tokens are balanced and nest within the limit. -/
theorem tokenize_reports_first (q : Text) (limit : Int) :
    (∀ i message, faultAt limit q i = some message → (∀ j < i, faultAt limit q j = none) →
      ∃ f, tokenize q limit = .error f ∧ f.diagnosis = ⟨message, i⟩) ∧
    ((∀ i < q.length, faultAt limit q i = none) →
      (∀ p, Unclosed q p → (∀ j < p, ¬ Unclosed q j) →
        ∃ f, tokenize q limit = .error f ∧ f.diagnosis = ⟨"Unmatched '('".toList, p⟩) ∧
      ((∀ p < q.length, ¬ Unclosed q p) → ∃ ts, tokenize q limit = .ok ts)) ∧
    ∀ ts, tokenize q limit = .ok ts →
      tokenBrackets.Balanced ts ∧ tokenBrackets.Within limit ts := by
  refine ⟨fun i message hi hfirst => ?_, fun hfaultless => ?_, fun ts hts => ?_⟩
  · apply exists_error_of_diagnosis?
    rw [diagnosis?_tokenize, complaintFrom_zero (lt_length_of_faultAt hi).le hfirst,
      complaintFrom_of_faultAt hi]
  -- no character is refused, so there is nothing left to complain about but open groups
  · have hend : diagnosis? (tokenize q limit) = _ := diagnosis?_tokenize.trans <|
      (complaintFrom_zero (Nat.le_refl _) hfaultless).trans complaintFrom_length
    refine ⟨fun p hp hfirst => exists_error_of_diagnosis? ?_, fun hclosed => ?_⟩
    · rw [hend, head?_leftOpen hp hfirst]
      rfl
    · apply exists_ok_of_diagnosis?
      have hnone : leftOpen 0 q = [] := by
        refine List.eq_nil_iff_forall_not_mem.2 fun p hp => ?_
        have hunclosed := unclosed_iff_mem.2 hp
        exact hclosed p (List.getElem?_eq_some_iff.1 hunclosed.1).1 hunclosed
      rw [hend, hnone]
      rfl
  · have hscan := scans_of_scan hts
    have hwithin := within_of_scans hscan
    rw [List.length_nil, Int.natCast_zero, Int.sub_zero] at hwithin
    exact ⟨Brackets.balanced_iff_descends.2 (descends_of_scans hscan), hwithin⟩

/-- A `-` in front of the end of a group comes before the group that is left open; without it, that
group is reported; and without that, the tokens are balanced. -/
theorem tokenize_of_open_groups :
    (∃ f, tokenize "(a) (b (-) )".toList 2 = .error f ∧
      f.diagnosis = ⟨"'-' must be directly followed by a term".toList, 8⟩) ∧
    (∃ f, tokenize "(a) (b (--)".toList 2 = .error f ∧ f.diagnosis = ⟨"Unmatched '('".toList, 4⟩) ∧
    ∃ ts, tokenize "(a) (b (-c))".toList 2 = .ok ts ∧ tokenBrackets.Balanced ts := by
  obtain ⟨hfault, -, -⟩ := tokenize_reports_first "(a) (b (-) )".toList 2
  obtain ⟨-, hopen, -⟩ := tokenize_reports_first "(a) (b (--)".toList 2
  obtain ⟨-, hclosed, hbalanced⟩ := tokenize_reports_first "(a) (b (-c))".toList 2
  refine ⟨hfault 8 _ (by decide) (by decide), (hopen (by decide)).1 4 (by decide) (by decide), ?_⟩
  obtain ⟨ts, hts⟩ := (hclosed (by decide)).2 (by decide)
  exact ⟨ts, hts, (hbalanced ts hts).1⟩

end Headline.Query
