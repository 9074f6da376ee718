import Headline.Proofs.FirstFault

/-!
# The place of a fault

Which place is reported can be told from the tokens alone. Going over them from the left, it is
enough to keep the parentheses that are open and the token read last (`Front`): the scan stops at
the first token that cannot come next, or at an end that comes too early, and what it has kept names
the token to blame (`Front.culprit`).

Each front has a stance that leads to the first fault (`Front.stance`). A step of the scan is a step
of the stances, and where the scan stops, they stop with a fault at the place of the culprit
(`Front.agreesOn`); so both find the same place in all token lists (`map_position_firstFault`).
-/

namespace Headline.Query

/-! ## Fronts -/

/-- How far a scan has come: the opening parentheses of the open groups, innermost first, and the
token read last, if there is one. -/
structure Front where
  opened : List Token
  previous : Option Token

namespace Front

/-- In front of all tokens. -/
def start : Front := ⟨[], none⟩

/-- An operand is complete behind a word or a closing parenthesis. At the start, and behind an
operator, a negation or an opening parenthesis, one is expected. -/
def complete (front : Front) : Bool := front.previous.any fun t => t.kind.endsOperand

/-- The token read last is a negation. -/
def negated (front : Front) : Bool := front.previous.any fun t => t.kind = .not

/-- Whether a token can come next, where groups nest at most `limit` deep. -/
def admits (limit : Int) (front : Front) (t : Token) : Bool :=
  if front.complete then
    match t.kind with
    | .and | .or => true
    | .closing => !front.opened.isEmpty
    | .word | .not | .opening => false
  else
    match t.kind with
    | .word => true
    | .not => !front.negated
    | .opening => front.opened.length + 1 ≤ limit
    | .and | .or | .closing => false

/-- Goes on with a token. -/
def after (front : Front) (t : Token) : Front where
  opened :=
    match t.kind with
    | .opening => t :: front.opened
    | .closing => front.opened.tail
    | .word | .and | .or | .not => front.opened
  previous := some t

/-- The token to blame when `found`, or the end, cannot come next. Behind a complete operand it is
the parenthesis of the innermost group, and outside all groups the token found. Where an operand is
expected, the token read last is to blame when it goes without one: at the end, in front of a
closing parenthesis, and in front of an operator if it is a negation. Otherwise it is the token
found. -/
def culprit (front : Front) (found : Option Token) : Option Token :=
  if front.complete then front.opened.head?.or found
  else
    match found.map Token.kind with
    | none | some .closing => front.previous.or found
    | some .and | some .or => if front.negated then front.previous else found
    | some .word | some .not | some .opening => found

/-- The place to blame, the very start when no token is to blame. -/
def blamed (front : Front) (found : Option Token) : Nat :=
  (front.culprit found).elim 0 Token.position

end Front

/-- The place to blame for the first of the tokens behind a front that cannot come next, or for
their end; there is none when all can and the end leaves a complete operand outside all groups. -/
def faultPlace (limit : Int) (front : Front) : List Token → Option Nat
  | [] => if front.complete && front.opened.isEmpty then none else some (front.blamed none)
  | t :: ts =>
    if front.admits limit t then faultPlace limit (front.after t) ts
    else some (front.blamed (some t))

/-! ## Stances seen from a front -/

/-- What the token in front of an operand demands. -/
def Demand.behind (previous : Option Token) : Demand :=
  match previous with
  | none => operand none
  | some t =>
    match t.kind with
    | .opening => content t
    | .not => term t
    | .word | .and | .or | .closing => operand (some t)

/-- Whatever goes without its operand is blamed on the token that demands it. -/
theorem Demand.position_missing_behind (previous found : Option Token) :
    ((behind previous).missing found).position = (previous.or found).elim 0 Token.position := by
  cases previous with
  | none => cases found <;> rfl
  | some t =>
    obtain ⟨kind, _, _⟩ := t
    cases kind <;> cases found <;> rfl

namespace Front

/-- The stance of a front. -/
def stance (front : Front) : Stance :=
  if front.complete then .complete front.opened
  else .expected front.opened (.behind front.previous)

variable {front : Front} {limit : Int} {t : Token}

theorem stance_of_complete (h : front.complete = true) : front.stance = .complete front.opened :=
  if_pos h

theorem stance_of_expected (h : front.complete = false) :
    front.stance = .expected front.opened (.behind front.previous) :=
  if_neg (by simp [h])

theorem stance_after_of_ends (h : t.kind.endsOperand = true) :
    (front.after t).stance = .complete (front.after t).opened :=
  stance_of_complete h

theorem stance_after_of_demands (h : t.kind.endsOperand = false) :
    (front.after t).stance = .expected (front.after t).opened (.behind (some t)) :=
  stance_of_expected h

theorem exists_term_of_negated (h : front.negated = true) :
    ∃ n, front.previous = some n ∧ Demand.behind front.previous = .term n := by
  obtain ⟨n, hn, hk⟩ := (Option.any_eq_true _ _).1 h
  refine ⟨n, hn, ?_⟩
  rw [hn, Demand.behind, of_decide_eq_true hk]

theorem behind_ne_term (h : front.negated = false) (n : Token) :
    Demand.behind front.previous ≠ .term n := by
  obtain ⟨opened, previous⟩ := front
  cases previous with
  | none => exact fun h => by cases h
  | some t =>
    obtain ⟨kind, _, _⟩ := t
    cases kind with
    | not => cases h
    | _ => exact fun h => by cases h

/-! ## Steps -/

/-- Scan and stances agree on a token: both go on with it, or both stop, at one place. -/
def AgreesOn (limit : Int) (front : Front) (t : Token) (ts : List Token) : Prop :=
  (front.admits limit t = true ∧
    firstFault limit front.stance (t :: ts) = firstFault limit (front.after t).stance ts) ∨
  (front.admits limit t = false ∧
    ∃ f, firstFault limit front.stance (t :: ts) = some f ∧ f.position = front.blamed (some t))

theorem agreesOn_of_expected (h : front.complete = false) (ts : List Token) :
    AgreesOn limit front t ts := by
  rw [AgreesOn, stance_of_expected h, admits, blamed, culprit, h]
  cases hk : t.kind with
  | word =>
    refine .inl ⟨rfl, ?_⟩
    rw [firstFault_word ts hk, stance_after_of_ends (by rw [hk]; rfl), after, hk]
  | opening =>
    by_cases hdepth : (front.opened.length : Int) + 1 ≤ limit
    · refine .inl ⟨decide_eq_true hdepth, ?_⟩
      rw [firstFault_opening ts hk hdepth, stance_after_of_demands (by rw [hk]; rfl),
        Demand.behind, after, hk]
    · refine .inr ⟨decide_eq_false hdepth, _, firstFault_tooDeep ts hk (Int.not_le.1 hdepth), ?_⟩
      simp [Fault.position, hk]
  | not =>
    cases hn : front.negated with
    | true =>
      obtain ⟨n, -, hdemand⟩ := exists_term_of_negated hn
      rw [hdemand]
      exact .inr ⟨rfl, _, firstFault_doubledNot ts hk, by simp [Fault.position, hk]⟩
    | false =>
      refine .inl ⟨rfl, ?_⟩
      rw [firstFault_not ts hk (behind_ne_term hn), stance_after_of_demands (by rw [hk]; rfl),
        Demand.behind, after, hk]
  | and | or =>
    -- a negation that waits for its term takes the blame
    cases hn : front.negated with
    | true =>
      obtain ⟨n, hprevious, hdemand⟩ := exists_term_of_negated hn
      rw [hdemand, hprevious]
      exact .inr ⟨rfl, _, firstFault_danglingNot ts (by simp [hk]), by simp [Fault.position, hk]⟩
    | false =>
      exact .inr ⟨rfl, _, firstFault_missingOperand ts (by simp [hk]) (behind_ne_term hn),
        by simp [Fault.position, hk]⟩
  | closing =>
    -- whatever is due, a closing parenthesis comes too early for it
    refine .inr ⟨rfl, _, firstFault_closing ts hk, ?_⟩
    rw [Demand.position_missing_behind]
    simp [hk]

theorem agreesOn_of_complete (h : front.complete = true) (ts : List Token) :
    AgreesOn limit front t ts := by
  rw [AgreesOn, stance_of_complete h, admits, blamed, culprit, h]
  cases hk : t.kind with
  | and | or =>
    refine .inl ⟨rfl, ?_⟩
    rw [firstFault_operator ts (by simp [hk]), stance_after_of_demands (by rw [hk]; rfl),
      Demand.behind, after, hk]
  | closing =>
    cases ho : front.opened with
    | nil => exact .inr ⟨rfl, _, firstFault_leftover ts (by rw [hk]; rfl), rfl⟩
    | cons l outer =>
      refine .inl ⟨rfl, ?_⟩
      rw [firstFault_close ts hk, stance_after_of_ends (by rw [hk]; rfl), after, hk, ho]
      rfl
  | word | not | opening =>
    -- two operands side by side: the second one is left over, or the group is left open at it
    cases front.opened with
    | nil => exact .inr ⟨rfl, _, firstFault_leftover ts (by rw [hk]; rfl), rfl⟩
    | cons l outer =>
      exact .inr ⟨rfl, _, firstFault_unclosed ts (by rw [hk]; rfl) (by rw [hk]; decide), rfl⟩

/-- One step of the scan. -/
theorem agreesOn (limit : Int) (front : Front) (t : Token) (ts : List Token) :
    AgreesOn limit front t ts := by
  cases h : front.complete with
  | true => exact agreesOn_of_complete h ts
  | false => exact agreesOn_of_expected h ts

/-- The end of the scan. -/
theorem map_position_finish (limit : Int) (front : Front) :
    front.stance.finish.map Fault.position = faultPlace limit front [] := by
  rw [faultPlace]
  cases h : front.complete with
  | true =>
    rw [stance_of_complete h, blamed, culprit, h]
    cases front.opened <;> rfl
  | false =>
    rw [stance_of_expected h, blamed, culprit, h]
    exact congrArg some (Demand.position_missing_behind front.previous none)

end Front

/-! ## Scans -/

/-- From every front, the scan stops where the first fault is found. -/
theorem map_position_firstFault (limit : Int) (front : Front) (ts : List Token) :
    (firstFault limit front.stance ts).map Fault.position = faultPlace limit front ts := by
  induction ts generalizing front with
  | nil => exact front.map_position_finish limit
  | cons t ts ih =>
    rw [faultPlace]
    rcases front.agreesOn limit t ts with ⟨hadmits, hstep⟩ | ⟨hrefuses, f, hf, hposition⟩
    · rw [hstep, hadmits, ih, if_pos rfl]
    · rw [hf, hrefuses, if_neg (by decide), ← hposition]
      rfl

/-- Whatever the tokens and the limit are, the parser fails on them exactly if the scan from the
left stops before their end or at an end that comes too early, and it reports the place that the
scan has for it. -/
theorem parseTokens_fails_at_iff (ts : List Token) (limit : Int) (p : Nat) :
    (∃ f, parseTokens ts limit = .error f ∧ f.position = p) ↔
      faultPlace limit .start ts = some p := by
  rw [← map_position_firstFault, Option.map_eq_some_iff]
  exact exists_congr fun f => and_congr_left' parseTokens_eq_error_iff

/-- A negation that follows a word is blamed on the group that it stands in. -/
example : faultPlace 1 .start
    [⟨.opening, ['('], 0⟩, ⟨.word, ['a'], 1⟩, ⟨.not, ['-'], 3⟩, ⟨.word, ['b'], 4⟩] = some 0 := rfl

end Headline.Query
