import Headline.Proofs.Recognition

/-!
# The first fault of a token list

Going over tokens from the left, it is known at each of them which groups are open, and whether an
operand is expected or complete (`Stance`). The first token that cannot come next is the fault, and
what to report about it is known without reading on (`firstFault`). The parser reports the same,
whatever the tokens are: `parseTokens_eq_error_iff`.

Each reader is compared with the stances that it leads through (`Follows`): it takes the stance
where an operand is expected to the one where it is complete, and its fault is the first one.
-/

namespace Headline.Query

/-! ## Stances -/

/-- Why an operand is expected: by its owner, or as the first one of all; as the content of a group;
or to be negated. -/
inductive Demand where
  | operand (owner : Option Token)
  | content (opening : Token)
  | term (negation : Token)

/-- Between two tokens, with the opening parentheses of the open groups, innermost first. -/
inductive Stance where
  | expected (opened : List Token) (demand : Demand)
  | complete (opened : List Token)

/-- What to report when `found`, or the end, leaves a demand open. -/
def Demand.missing (demand : Demand) (found : Option Token) : Fault :=
  match demand, found with
  | operand owner, found => Parser.missing owner found
  | content l, none => .expectedTerm l
  | content l, some _ => .emptyGroup l.position
  | term n, _ => .danglingNot n.position

/-- Goes on with a token where an operand is expected. -/
def Demand.step (limit : Int) (opened : List Token) (demand : Demand) (t : Token) :
    Except Fault Stance :=
  match t.kind, demand with
  | .word, _ => .ok (.complete opened)
  | .opening, _ =>
    if limit < opened.length + 1 then .error (.tooDeep limit t.position)
    else .ok (.expected (t :: opened) (.content t))
  | .not, term _ => .error (.unexpected t)
  | .not, _ => .ok (.expected opened (.term t))
  | .and, term n | .or, term n => .error (.danglingNot n.position)
  | .and, _ | .or, _ => .error (.missingOperand t)
  | .closing, demand => .error (demand.missing (some t))

namespace Stance

/-- Goes on with a token. -/
def step (limit : Int) (stance : Stance) (t : Token) : Except Fault Stance :=
  match stance with
  | expected opened demand => demand.step limit opened t
  | complete opened =>
    match t.kind, opened with
    | .and, _ | .or, _ => .ok (.expected opened (.operand t))
    | .closing, _ :: outer => .ok (.complete outer)
    | _, [] => .error (.unexpected t)
    | _, l :: _ => .error (.unclosed l.position)

/-- What to report at the end. -/
def finish : Stance → Option Fault
  | expected _ demand => some (demand.missing none)
  | complete [] => none
  | complete (l :: _) => some (.unclosed l.position)

end Stance

/-- The first fault of the tokens behind a stance. -/
def firstFault (limit : Int) (stance : Stance) : List Token → Option Fault
  | [] => stance.finish
  | t :: ts =>
    match stance.step limit t with
    | .error f => some f
    | .ok stance => firstFault limit stance ts

section Steps

variable {limit : Int} {opened : List Token} {demand : Demand} {t : Token} (ts : List Token)

theorem firstFault_expected_cons :
    firstFault limit (.expected opened demand) (t :: ts) =
      match demand.step limit opened t with
      | .error f => some f
      | .ok stance => firstFault limit stance ts :=
  rfl

theorem firstFault_word (ht : t.kind = .word) :
    firstFault limit (.expected opened demand) (t :: ts) =
      firstFault limit (.complete opened) ts := by
  obtain ⟨_, _, _⟩ := t
  cases ht
  rfl

theorem firstFault_opening (ht : t.kind = .opening) (hdepth : (opened.length : Int) + 1 ≤ limit) :
    firstFault limit (.expected opened demand) (t :: ts) =
      firstFault limit (.expected (t :: opened) (.content t)) ts := by
  have hstep : demand.step limit opened t = .ok (.expected (t :: opened) (.content t)) := by
    obtain ⟨_, _, _⟩ := t
    cases ht
    exact if_neg (Int.not_lt.2 hdepth)
  rw [firstFault_expected_cons, hstep]

theorem firstFault_tooDeep (ht : t.kind = .opening) (hdepth : limit < opened.length + 1) :
    firstFault limit (.expected opened demand) (t :: ts) = some (.tooDeep limit t.position) := by
  have hstep : demand.step limit opened t = .error (.tooDeep limit t.position) := by
    obtain ⟨_, _, _⟩ := t
    cases ht
    exact if_pos hdepth
  rw [firstFault_expected_cons, hstep]

theorem firstFault_not (ht : t.kind = .not) (hdemand : ∀ n, demand ≠ .term n) :
    firstFault limit (.expected opened demand) (t :: ts) =
      firstFault limit (.expected opened (.term t)) ts := by
  obtain ⟨_, _, _⟩ := t
  cases ht
  cases demand with
  | term n => exact absurd rfl (hdemand n)
  | _ => rfl

theorem firstFault_doubledNot {n : Token} (ht : t.kind = .not) :
    firstFault limit (.expected opened (.term n)) (t :: ts) = some (.unexpected t) := by
  obtain ⟨_, _, _⟩ := t
  cases ht
  rfl

theorem firstFault_missingOperand (ht : t.kind = .and ∨ t.kind = .or)
    (hdemand : ∀ n, demand ≠ .term n) :
    firstFault limit (.expected opened demand) (t :: ts) = some (.missingOperand t) := by
  obtain ⟨_, _, _⟩ := t
  cases demand with
  | term n => exact absurd rfl (hdemand n)
  | _ => rcases ht with ht | ht <;> cases ht <;> rfl

theorem firstFault_danglingNot {n : Token} (ht : t.kind = .and ∨ t.kind = .or) :
    firstFault limit (.expected opened (.term n)) (t :: ts) = some (.danglingNot n.position) := by
  obtain ⟨_, _, _⟩ := t
  rcases ht with ht | ht <;> cases ht <;> rfl

theorem firstFault_closing (ht : t.kind = .closing) :
    firstFault limit (.expected opened demand) (t :: ts) = some (demand.missing (some t)) := by
  obtain ⟨_, _, _⟩ := t
  cases ht
  rfl

theorem firstFault_operator (ht : t.kind = .and ∨ t.kind = .or) :
    firstFault limit (.complete opened) (t :: ts) =
      firstFault limit (.expected opened (.operand t)) ts := by
  obtain ⟨_, _, _⟩ := t
  rcases ht with ht | ht <;> cases ht <;> rfl

theorem firstFault_close {l : Token} (ht : t.kind = .closing) :
    firstFault limit (.complete (l :: opened)) (t :: ts) =
      firstFault limit (.complete opened) ts := by
  obtain ⟨_, _, _⟩ := t
  cases ht
  rfl

/-- Behind a complete operand, an expression goes on with an operator only. -/
theorem firstFault_leftover (ht : Rank.expression.continuesWith .written t.kind = false) :
    firstFault limit (.complete []) (t :: ts) = some (.unexpected t) := by
  obtain ⟨kind, _, _⟩ := t
  cases kind with
  | and | or => cases ht
  | _ => rfl

/-- Inside a group, it may end too. -/
theorem firstFault_unclosed {l : Token}
    (ht : Rank.expression.continuesWith .written t.kind = false) (hne : t.kind ≠ .closing) :
    firstFault limit (.complete (l :: opened)) (t :: ts) = some (.unclosed l.position) := by
  obtain ⟨kind, _, _⟩ := t
  cases kind with
  | and | or => cases ht
  | closing => exact absurd rfl hne
  | _ => rfl

/-- Unless it is empty, a group is the operand of its opening parenthesis. -/
theorem firstFault_content {l : Token} {ts : List Token}
    (hts : ts.head?.map Token.kind ≠ some .closing) :
    firstFault limit (.expected opened (.content l)) ts =
      firstFault limit (.expected opened (.operand (some l))) ts := by
  cases ts with
  | nil => rfl
  | cons t ts =>
    obtain ⟨kind, _, _⟩ := t
    cases kind with
    | closing => exact absurd rfl hts
    | _ => rfl

end Steps

/-! ## Readers -/

namespace Parser

/-- A reader of rank `r` came to a result where the first fault is `verdict`: it reports the fault,
or the fault lies in what it leaves, behind a complete operand. -/
def Agrees (limit : Int) (opened : List Token) (r : Rank) (verdict : Option Fault) :
    Except Fault (Tree × List Token) → Prop
  | .error f => verdict = some f
  | .ok (_, rest) =>
    verdict = firstFault limit (.complete opened) rest ∧ r.EndsBefore .written rest

/-- A reader agrees wherever an operand is expected inside these groups. -/
def Follows (limit : Int) (opened : List Token) (r : Rank) (operand : OperandReader) : Prop :=
  ∀ owner ts, Agrees limit opened r (firstFault limit (.expected opened (.operand owner)) ts)
    ((operand owner).read ts)

section Chains

variable {operator : TokenKind} {join : Tree → Tree → Tree} {operand : OperandReader}
  {limit : Int} {opened : List Token} {r r' : Rank}

theorem agrees_chainFrom (hoperator : operator = .and ∨ operator = .or)
    (hoperand : Follows limit opened r operand)
    (hends : ∀ rest, r.EndsBefore .written rest → (∀ t us, rest = t :: us → t.kind ≠ operator) →
      r'.EndsBefore .written rest)
    (left : Tree) (ts : List Token) (hts : r.EndsBefore .written ts) :
    Agrees limit opened r' (firstFault limit (.complete opened) ts)
      (chainFrom operator join operand left ts) := by
  -- each step of the chain is a connective with an operand behind it
  fun_induction chainFrom operator join operand left ts with
  | case1 left => exact ⟨rfl, hends [] hts (by simp)⟩
  | case2 left o ts ho fault hr =>
    have h := hoperand (some o) ts
    rw [hr] at h
    rw [firstFault_operator ts (by rwa [ho])]
    exact h
  | case3 left o ts ho right rest hr ih =>
    have h := hoperand (some o) ts
    rw [hr] at h
    rw [firstFault_operator ts (by rwa [ho]), h.1]
    exact ih h.2
  | case4 left o ts ho =>
    -- another connective ends the chain, and it is for others to go on
    refine ⟨rfl, hends _ hts fun t us h => ?_⟩
    obtain ⟨rfl, -⟩ := List.cons_eq_cons.1 h
    exact ho

theorem follows_chain (hoperator : operator = .and ∨ operator = .or)
    (hoperand : Follows limit opened r operand)
    (hends : ∀ rest, r.EndsBefore .written rest → (∀ t us, rest = t :: us → t.kind ≠ operator) →
      r'.EndsBefore .written rest) :
    Follows limit opened r' (chain operator join operand) := by
  intro owner ts
  have h := hoperand owner ts
  show Agrees _ _ _ _ (readChain operator join operand owner ts)
  unfold readChain
  split
  · next hr =>
    rw [hr] at h
    exact h
  · next hr =>
    rw [hr] at h
    rw [h.1]
    exact agrees_chainFrom hoperator hoperand hends _ _ h.2

end Chains

section Levels

variable {limit : Int} {levels : Nat} {opened : List Token}

theorem Agrees.negation {verdict : Option Fault} {result : Except Fault (Tree × List Token)}
    (h : Agrees limit opened .primary verdict result) :
    Agrees limit opened .negation verdict result := by
  cases result with
  | error f => exact h
  | ok taken => exact ⟨h.1, Derivation.negation_endsBefore taken.2⟩

/-- The reader inside groups follows, one level further down. -/
def InnerFollows (limit : Int) (opened : List Token) (levels : Nat) : Prop :=
  ∀ k, k + 1 = levels → ∀ l, Follows limit (l :: opened) .expression (expression limit k)

variable (hlevels : opened.length + levels = limit.toNat) (hin : InnerFollows limit opened levels)

include hlevels hin

/-- A group, wherever an operand is expected. -/
theorem agrees_group (demand : Demand) {l : Token} (hl : l.kind = .opening) (ts : List Token) :
    Agrees limit opened .primary (firstFault limit (.expected opened demand) (l :: ts))
      (group limit (inner limit levels) l ts) := by
  cases levels with
  | zero => exact firstFault_tooDeep ts hl (by omega)
  | succ k =>
    rw [firstFault_opening ts hl (by omega), inner, group]
    -- a group without content is refused before an expression is looked for
    by_cases hclose : ts.head?.map Token.kind = some .closing
    · obtain ⟨t, ht, hk⟩ := Option.map_eq_some_iff.1 hclose
      obtain ⟨us, rfl⟩ := List.head?_eq_some_iff.1 ht
      simp only [if_pos hclose]
      exact firstFault_closing us hk
    · simp only [if_neg hclose]
      have h := hin k rfl l (some l) ts
      rw [firstFault_content hclose]
      cases hr : (expression limit k (some l)).read ts with
      | error fault =>
        rw [hr] at h
        exact h
      | ok taken =>
        obtain ⟨e, rest⟩ := taken
        rw [hr] at h
        obtain ⟨hverdict, hends⟩ := h
        rw [hverdict]
        -- behind its content the group has to be closed
        cases rest with
        | nil => exact rfl
        | cons t rest =>
          by_cases ht : t.kind = .closing
          · simp only [if_pos ht]
            exact ⟨firstFault_close rest ht, Derivation.primary_endsBefore rest⟩
          · simp only [if_neg ht]
            exact firstFault_unclosed rest (hends t rest rfl) ht

/-- A word or a group, wherever an operand is expected. -/
theorem agrees_primaryAt_of_starts (demand : Demand) (owner : Option Token) {t : Token}
    (ht : t.kind = .word ∨ t.kind = .opening) (ts : List Token) :
    Agrees limit opened .primary (firstFault limit (.expected opened demand) (t :: ts))
      ((primaryAt limit levels owner).read (t :: ts)) := by
  show Agrees _ _ _ _ (readPrimary limit (inner limit levels) owner (t :: ts))
  rcases ht with ht | ht
  · simp only [readPrimary, ht]
    exact ⟨firstFault_word ts ht, Derivation.primary_endsBefore ts⟩
  · simp only [readPrimary, ht]
    exact agrees_group hlevels hin demand ht ts

/-- An operand without a negation. -/
theorem agrees_primaryAt (owner : Option Token) {t : Token} (ht : t.kind ≠ .not)
    (ts : List Token) :
    Agrees limit opened .primary (firstFault limit (.expected opened (.operand owner)) (t :: ts))
      ((primaryAt limit levels owner).read (t :: ts)) := by
  cases hk : t.kind with
  | word | opening => exact agrees_primaryAt_of_starts hlevels hin _ owner (by simp [hk]) ts
  | not => exact absurd hk ht
  | and | or =>
    show Agrees _ _ _ _ (readPrimary limit (inner limit levels) owner (t :: ts))
    simp only [readPrimary, hk]
    exact firstFault_missingOperand ts (by simp [hk]) (by simp)
  | closing =>
    show Agrees _ _ _ _ (readPrimary limit (inner limit levels) owner (t :: ts))
    simp only [readPrimary, hk]
    exact firstFault_closing ts hk

/-- What a negation negates, after the reader has looked at its first token. -/
theorem agrees_negated (n : Token) (ts : List Token) :
    Agrees limit opened .primary (firstFault limit (.expected opened (.term n)) ts)
      (if startsNegated (ts.head?.map Token.kind) then (primaryAt limit levels (some n)).read ts
        else .error (.danglingNot n.position)) := by
  cases ts with
  | nil => exact rfl
  | cons t ts =>
    -- behind a negation stands a word or a group, and nothing else
    cases hk : t.kind with
    | word | opening =>
      rw [if_pos (by simp [startsNegated, hk])]
      exact agrees_primaryAt_of_starts hlevels hin _ _ (by simp [hk]) ts
    | not =>
      rw [if_pos (by simp [startsNegated, hk])]
      show Agrees _ _ _ _ (readPrimary limit (inner limit levels) (some n) (t :: ts))
      simp only [readPrimary, hk]
      exact firstFault_doubledNot ts hk
    | and | or =>
      rw [if_neg (by simp [startsNegated, hk])]
      exact firstFault_danglingNot ts (by simp [hk])
    | closing =>
      rw [if_neg (by simp [startsNegated, hk])]
      exact firstFault_closing ts hk

theorem follows_negationAt : Follows limit opened .negation (negationAt limit levels) := by
  intro owner ts
  show Agrees _ _ _ _ (readNegation (primaryAt limit levels) owner ts)
  cases ts with
  | nil => exact rfl
  | cons t ts =>
    rw [readNegation]
    by_cases ht : t.kind = .not
    · have h := agrees_negated hlevels hin t ts
      rw [if_pos ht, firstFault_not ts ht (by simp)]
      split
      · next hstarts =>
        rw [if_pos hstarts] at h
        cases hr : (primaryAt limit levels (some t)).read ts with
        | error fault =>
          rw [hr] at h
          exact h
        | ok taken =>
          rw [hr] at h
          exact h.negation
      · next hstarts =>
        rw [if_neg hstarts] at h
        exact h.negation
    · rw [if_neg ht]
      exact (agrees_primaryAt hlevels hin owner ht ts).negation

/-- An expression follows when those inside its groups do. -/
theorem follows_expression_of_inner :
    Follows limit opened .expression (expression limit levels) := by
  have hconjunction : Follows limit opened .conjunction (conjunctionAt limit levels) := by
    refine follows_chain (.inl rfl) (follows_negationAt hlevels hin) fun rest _ hne t us h => ?_
    simpa [Rank.continuesWith] using hne t us h
  rw [expression_eq]
  refine follows_chain (.inr rfl) hconjunction fun rest hends hne t us h => ?_
  have hand := hends t us h
  have hor := hne t us h
  simp_all [Rank.continuesWith]

end Levels

theorem follows_expression (limit : Int) {levels : Nat} {opened : List Token}
    (hlevels : opened.length + levels = limit.toNat) :
    Follows limit opened .expression (expression limit levels) := by
  induction levels generalizing opened with
  | zero => exact follows_expression_of_inner hlevels fun k hk => absurd hk (Nat.succ_ne_zero k)
  | succ k ih =>
    refine follows_expression_of_inner hlevels fun k' hk l => ?_
    obtain rfl := Nat.succ.inj hk
    exact ih (by simp only [List.length_cons]; omega)

end Parser

/-- The parser reports the first fault, and nothing else. -/
theorem parseTokens_eq_error_iff {ts : List Token} {limit : Int} {f : Fault} :
    parseTokens ts limit = .error f ↔
      firstFault limit (.expected [] (.operand none)) ts = some f := by
  have hlevels : ([] : List Token).length + limit.toNat = limit.toNat := Nat.zero_add _
  have h := Parser.follows_expression limit hlevels none ts
  rw [parseTokens]
  cases hr : (Parser.expression limit limit.toNat none).read ts with
  | error fault =>
    rw [hr] at h
    rw [show firstFault limit _ ts = some fault from h]
    simp
  | ok taken =>
    obtain ⟨e, rest⟩ := taken
    rw [hr] at h
    obtain ⟨hverdict, hends⟩ := h
    rw [hverdict]
    -- what the expression has left unread is too much
    cases rest with
    | nil => simp [firstFault, Stance.finish]
    | cons t rest => simp [firstFault_leftover rest (hends t rest rfl)]

end Headline.Query
