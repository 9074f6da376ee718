import Headline.Proofs.Scan

/-!
# The lexemes of a query

Which tokens begin at a place of a query is decided by the character to the left and the text from
that place on (`lexemesStarting`). The lexer yields exactly these, place by place.

`eq_lexemes_of_scans` is by induction over a scan. A scan may stop between a negation and the word
behind it, so what is left of that word counts too (`resumed`).
-/

namespace Headline.Query

/-! ## Declared lexemes -/

/-- A run of letters as a token: an operator when it is `and` or `or` in letters of any case. -/
def wordToken (w : Text) (position : Nat) : Token where
  kind :=
    if Text.lowerAscii w = "and".toList then .and
    else if Text.lowerAscii w = "or".toList then .or
    else .word
  spelling := w
  position := position

/-- Whether a `-` between these neighbours negates: to its left is nothing, a blank or a `(`, and
to its right a character that is no blank, no `)` and no second `-`. -/
def negates (previous next : Option Char) : Bool :=
  previous.all (fun c => isBlank c || c == '(') &&
    next.any fun c => !isBlank c && c != ')' && c != '-'

/-- The tokens that begin with the first character of a text, which stands at `position` behind
`previous`. A run of letters makes them where it starts, and none further on. -/
def lexemesStarting (previous : Option Char) (position : Nat) : Text → List Token
  | [] => []
  | c :: s =>
    if c = '(' then [⟨.opening, [c], position⟩]
    else if c = ')' then [⟨.closing, [c], position⟩]
    else if isBlank c || previous.any isLetter then []
    else
      let run := (c :: s).takeWhile isLetter
      if c = '-' ∧ negates previous s.head? then
        ⟨.not, [c], position⟩ ::
          if run.length = 1 then [] else [wordToken run.tail (position + 1)]
      else [wordToken run position]

/-- The tokens that begin at place `i` of a query. -/
def lexemesAt (q : Text) (i : Nat) : List Token :=
  lexemesStarting (q.take i).getLast? i (q.drop i)

/-! ## Letter case -/

theorem toNat_toUpper (c : Char) :
    c.toUpper.toNat = if 97 ≤ c.toNat ∧ c.toNat ≤ 122 then c.toNat - 32 else c.toNat := by
  have hlt := c.val.toNat_lt
  by_cases h : 97 ≤ c.toNat ∧ c.toNat ≤ 122
  · have hupper : c.toUpper = ⟨c.val + ('A'.val - 'a'.val), _⟩ := dif_pos h
    have hdiff : ('A'.val - 'a'.val).toNat = 2 ^ 32 - 32 := rfl
    rw [hupper, if_pos h]
    show (c.val + ('A'.val - 'a'.val)).toNat = c.val.toNat - 32
    rw [UInt32.toNat_add, hdiff]
    have hle : 97 ≤ c.val.toNat := h.1
    omega
  · have hupper : c.toUpper = c := dif_neg h
    rw [hupper, if_neg h]

theorem toNat_toLower (c : Char) :
    c.toLower.toNat = if 65 ≤ c.toNat ∧ c.toNat ≤ 90 then c.toNat + 32 else c.toNat := by
  by_cases h : 65 ≤ c.toNat ∧ c.toNat ≤ 90
  · have hlower : c.toLower = ⟨c.val + ('a'.val - 'A'.val), _⟩ := dif_pos h
    have hdiff : ('a'.val - 'A'.val).toNat = 32 := rfl
    rw [hlower, if_pos h]
    show (c.val + ('a'.val - 'A'.val)).toNat = c.val.toNat + 32
    rw [UInt32.toNat_add, hdiff]
    have hle : c.val.toNat ≤ 90 := h.2
    omega
  · have hlower : c.toLower = c := dif_neg h
    rw [hlower, if_neg h]

theorem toUpper_eq_iff (c d : Char) : c.toUpper = d.toUpper ↔ c.toLower = d.toLower := by
  rw [← Char.toNat_inj, ← Char.toNat_inj, toNat_toUpper, toNat_toUpper, toNat_toLower,
    toNat_toLower]
  repeat' split
  all_goals omega

/-- Words agree in capitals when they agree in small letters. -/
theorem upperAscii_eq_iff (v w : Text) :
    Text.upperAscii v = Text.upperAscii w ↔ Text.lowerAscii v = Text.lowerAscii w := by
  induction v generalizing w with
  | nil => cases w <;> simp [Text.upperAscii, Text.lowerAscii]
  | cons c v ih =>
    cases w with
    | nil => simp [Text.upperAscii, Text.lowerAscii]
    | cons d w =>
      simp only [Text.upperAscii, Text.lowerAscii, List.map_cons, List.cons.injEq] at ih ⊢
      rw [ih w, toUpper_eq_iff]

/-- The lexer and the declared lexemes agree on which words are operators. -/
theorem wordToken_eq (w : Text) (position : Nat) :
    wordToken w position = ⟨.ofWord w, w, position⟩ := by
  have hand : Text.upperAscii w = "AND".toList ↔ Text.lowerAscii w = "and".toList :=
    upperAscii_eq_iff w "AND".toList
  have hor : Text.upperAscii w = "OR".toList ↔ Text.lowerAscii w = "or".toList :=
    upperAscii_eq_iff w "OR".toList
  simp only [wordToken, TokenKind.ofWord, hand, hor]

/-! ## Lexemes along a text -/

/-- The lexemes of a text that stands at `position` behind `previous`. -/
def lexemes (previous : Option Char) (position : Nat) : Text → List Token
  | [] => []
  | c :: s => lexemesStarting previous position (c :: s) ++ lexemes (some c) (position + 1) s

/-- Going along a text visits its places one by one. -/
theorem lexemes_eq_flatMap (before s : Text) :
    lexemes before.getLast? before.length s =
      (List.range' before.length s.length).flatMap (lexemesAt (before ++ s)) := by
  induction s generalizing before with
  | nil => rfl
  | cons c s ih =>
    have hhere : lexemesAt (before ++ c :: s) before.length =
        lexemesStarting before.getLast? before.length (c :: s) := by
      rw [lexemesAt, List.take_left, List.drop_left]
    have htail := ih (before ++ [c])
    rw [List.length_append, List.length_singleton, List.getLast?_concat, List.append_assoc,
      List.singleton_append] at htail
    rw [lexemes, htail, List.length_cons, List.range'_succ, List.flatMap_cons, hhere]

theorem lexemesStarting_blank {c : Char} (hc : isBlank c) (previous : Option Char)
    (position : Nat) (s : Text) : lexemesStarting previous position (c :: s) = [] := by
  have hl : c ≠ '(' := by rintro rfl; cases hc
  have hr : c ≠ ')' := by rintro rfl; cases hc
  rw [lexemesStarting, if_neg hl, if_neg hr, hc, Bool.true_or, if_pos rfl]

/-- Inside a run no lexeme begins. -/
theorem lexemesStarting_inside {c : Char} (hc : isLetter c) (previous : Option Char)
    (hprevious : previous.any isLetter) (position : Nat) (s : Text) :
    lexemesStarting previous position (c :: s) = [] := by
  obtain ⟨-, hl, hr⟩ := isLetter_iff.1 hc
  rw [lexemesStarting, if_neg hl, if_neg hr, hprevious, Bool.or_true, if_pos rfl]

theorem lexemesStarting_run {c : Char} (hc : isLetter c) {previous : Option Char}
    (hprevious : previous.any isLetter = false) (position : Nat) (s : Text) :
    lexemesStarting previous position (c :: s) =
      if c = '-' ∧ negates previous s.head? then
        ⟨.not, [c], position⟩ ::
          if s.takeWhile isLetter = [] then []
          else [wordToken (s.takeWhile isLetter) (position + 1)]
      else [wordToken (c :: s.takeWhile isLetter) position] := by
  obtain ⟨hb, hl, hr⟩ := isLetter_iff.1 hc
  rw [lexemesStarting, if_neg hl, if_neg hr, hb, hprevious, Bool.or_false,
    if_neg Bool.false_ne_true, List.takeWhile_cons_of_pos hc]
  simp only [List.length_cons, List.tail_cons, Nat.add_eq_right, List.length_eq_zero_iff]

theorem lexemes_run {c : Char} (hc : isLetter c) {run s : Text} (hrun : ∀ d ∈ run, isLetter d)
    (position : Nat) :
    lexemes (some c) position (run ++ s) =
      lexemes (c :: run).getLast? (position + run.length) s := by
  induction run generalizing c position with
  | nil => rfl
  | cons d run ih =>
    have hd : isLetter d := hrun d (List.mem_cons_self ..)
    have hrest : ∀ x ∈ run, isLetter x := fun x hx => hrun x (List.mem_cons_of_mem _ hx)
    have hnone : lexemesStarting (some c) position (d :: (run ++ s)) = [] :=
      lexemesStarting_inside hd (some c) hc ..
    rw [List.cons_append, lexemes, hnone, List.nil_append, ih hd hrest, List.getLast?_cons_cons,
      List.length_cons]
    congr 1
    omega

/-! ## Lexemes of a scan -/

theorem startsTerm_eq_all (previous : Option Char) :
    startsTerm previous = previous.all fun c => isBlank c || c == '(' := by
  cases previous <;> rfl

theorem before_eq_negation_iff (next : Option Char) :
    Hyphen.before next = .negation ↔ next.any fun c => !isBlank c && c != ')' && c != '-' := by
  cases next with
  | none => simp [Hyphen.before]
  | some c =>
    simp only [Hyphen.before, Option.any_some, Bool.and_eq_true, Bool.not_eq_true', bne_iff_ne]
    split
    · next h => simp [h]
    · next h =>
      split
      · next h' => simp; grind
      · next h' => simp; grind

theorem negates_iff {previous next : Option Char} :
    negates previous next ↔ startsTerm previous ∧ Hyphen.before next = .negation := by
  rw [negates, Bool.and_eq_true, ← startsTerm_eq_all, before_eq_negation_iff]

/-- A term starts behind no letter. -/
theorem not_any_isLetter_of_startsTerm {previous : Option Char} (h : startsTerm previous) :
    previous.any isLetter = false := by
  cases previous with
  | none => rfl
  | some c =>
    simp only [startsTerm, Bool.or_eq_true, beq_iff_eq] at h
    rw [Option.any_some, Bool.eq_false_iff]
    intro hc
    obtain ⟨hb, hl, -⟩ := isLetter_iff.1 hc
    rcases h with h | h
    · rw [hb] at h
      cases h
    · exact hl h

/-- What a scan that starts inside a run yields for the rest of the run. -/
def resumed (previous : Option Char) (position : Nat) (s : Text) : List Token :=
  if previous.any isLetter ∧ s.takeWhile isLetter ≠ [] then
    [wordToken (s.takeWhile isLetter) position]
  else []

theorem resumed_of_not_letter (previous : Option Char) (h : previous.any isLetter = false)
    (position : Nat) (s : Text) : resumed previous position s = [] := by
  rw [resumed, if_neg (by rw [h]; simp)]

theorem resumed_of_endsWord {s : Text} (h : EndsWord s) (previous : Option Char)
    (position : Nat) : resumed previous position s = [] := by
  rw [resumed, if_neg (by rw [takeWhile_isLetter_of_endsWord h]; simp)]

theorem eq_lexemes_of_scans {limit : Int} {previous : Option Char} {position : Nat}
    {opened : List Nat} {s : Text} {ts : List Token}
    (h : Scans limit previous position opened s ts) :
    ts = resumed previous position s ++ lexemes previous position s := by
  induction h with
  | done => rw [resumed_of_endsWord endsWord_nil]; rfl
  | @blank previous position _ c s _ hc h ih =>
    have hletter : isLetter c = false := by simp [isLetter, isBoundary, hc]
    have hnone : resumed (some c) (position + 1) s = [] :=
      resumed_of_not_letter (some c) hletter ..
    rw [resumed_of_endsWord (endsWord_cons hletter), lexemes, lexemesStarting_blank hc, ih, hnone]
    rfl
  | opening hdepth h ih =>
    rw [resumed_of_endsWord (endsWord_cons (by decide)), lexemes, ih,
      resumed_of_not_letter _ (by decide)]
    rfl
  | closing h ih =>
    rw [resumed_of_endsWord (endsWord_cons (by decide)), lexemes, ih,
      resumed_of_not_letter _ (by decide)]
    rfl
  | @negation previous position _ s _ hprevious hnext h ih =>
    have hp := not_any_isLetter_of_startsTerm hprevious
    rw [resumed_of_not_letter previous hp, lexemes, lexemesStarting_run (by decide) hp,
      if_pos ⟨rfl, negates_iff.2 ⟨hprevious, hnext⟩⟩, ih, resumed]
    -- the run behind the hyphen goes on, if there is one
    by_cases hrun : s.takeWhile isLetter = []
    · simp [hrun]
    · simp [hrun, show isLetter '-' = true from by decide]
  | @word previous position _ c run s _ hc hrun hs hhyphen h ih =>
    have hrest : resumed (c :: run).getLast? (position + (c :: run).length) s = [] :=
      resumed_of_endsWord hs ..
    have htake : (run ++ s).takeWhile isLetter = run := wordTail_append hrun hs
    have hskip := lexemes_run hc hrun (position + 1) (s := s)
    rw [← wordToken_eq, ih, hrest, lexemes, hskip, List.length_cons, Nat.add_assoc,
      Nat.add_comm 1 run.length, List.nil_append]
    cases hp : previous.any isLetter with
    | true =>
      -- the rest of a run whose negation has been read
      rw [lexemesStarting_inside hc previous hp, resumed, hp, List.takeWhile_cons_of_pos hc, htake]
      rfl
    | false =>
      -- the scan would have read such a hyphen as a negation of its own
      have hnegates : ¬ (c = '-' ∧ negates previous (run ++ s).head?) := by
        rintro ⟨hc, hn⟩
        obtain ⟨hstart, hnext⟩ := negates_iff.1 hn
        rw [hhyphen hc hstart] at hnext
        cases hnext
      rw [resumed_of_not_letter previous hp, lexemesStarting_run hc hp, if_neg hnegates, htake]
      rfl

/-- The tokens of a query are its lexemes, place by place. They stand one after the other, each
spelled as the query reads at its place, and nothing but blanks is left between them. -/
theorem tokens_are_lexemes {q : Text} {limit : Int} {ts : List Token}
    (h : tokenize q limit = .ok ts) :
    ts = (List.range q.length).flatMap (lexemesAt q) ∧
    ts.Pairwise (fun a b => a.position < b.position) ∧
    (∀ t ∈ ts, (q.drop t.position).take t.spelling.length = t.spelling) ∧
    ts.Pairwise (fun a b => a.position + a.spelling.length ≤ b.position) ∧
    (∀ i c, q[i]? = some c → (∀ t ∈ ts, ¬ t.Covers i) → isBlank c) ∧
    ts.flatMap Token.spelling = Text.dropBlanks q := by
  have hscan : Scans limit none 0 [] q ts := scans_of_scan h
  have htiles : Tiles 0 q ts := tiles_of_scans hscan
  refine ⟨?_, htiles.pairwise_positions, fun t ht => ?_, htiles.pairwise_spans,
    fun i c hi hcover => ?_, htiles.flatMap_spelling⟩
  · have hlex := eq_lexemes_of_scans hscan
    rw [resumed_of_not_letter none rfl] at hlex
    have hplaces := lexemes_eq_flatMap [] q
    rw [List.length_nil, ← List.range_eq_range'] at hplaces
    exact hlex.trans hplaces
  · simpa using htiles.take_drop_position t ht
  · exact htiles.isBlank_of_uncovered hi (by simpa using hcover)

/-- A negated group, words with hyphens and an operator. -/
theorem tokens_of_negated_group :
    ∃ ts, tokenize "-(b)-c oR --d".toList 1 = .ok ts ∧ ts.length = 7 ∧
      ts = (List.range 13).flatMap (lexemesAt "-(b)-c oR --d".toList) ∧
      ts.flatMap Token.spelling = "-(b)-coR--d".toList := by
  have h : tokenize "-(b)-c oR --d".toList 1 = .ok
      [⟨.not, ['-'], 0⟩, ⟨.opening, ['('], 1⟩, ⟨.word, ['b'], 2⟩, ⟨.closing, [')'], 3⟩,
        ⟨.word, ['-', 'c'], 4⟩, ⟨.or, ['o', 'R'], 7⟩, ⟨.word, ['-', '-', 'd'], 10⟩] := by
    decide +kernel
  obtain ⟨hlex, -, -, -, -, hspelling⟩ := tokens_are_lexemes h
  exact ⟨_, h, rfl, hlex, hspelling.trans (by decide)⟩

end Headline.Query
