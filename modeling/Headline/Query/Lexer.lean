import Headline.Query.Fault

/-!
# Lexer

`tokenize` cuts a query into tokens. Parentheses stand for themselves, and every maximal run of
other characters that are not blank is one word, except that a `-` which starts a term and touches
its operand is a negation. Parentheses are balanced when lexing succeeds.
-/

namespace Headline.Query

/-- How deep parentheses may nest unless the caller says otherwise. -/
def defaultDepth : Int := 128

/-- A blank or a parenthesis, which ends a word. -/
def isBoundary (c : Char) : Bool := isBlank c || c == '(' || c == ')'

/-- Whether a term may start after `previous`, the character to the left if there is one. -/
def startsTerm : Option Char → Bool
  | none => true
  | some c => isBlank c || c == '('

/-- What a `-` at the start of a term stands for. -/
inductive Hyphen where
  | negation
  | letter
  | dangling
  deriving DecidableEq, Repr

/-- A `-` that starts a term negates it, is dangling when no term touches it, and is an ordinary
letter in front of a second `-`. -/
def Hyphen.before : Option Char → Hyphen
  | none => .dangling
  | some c => if c = '-' then .letter else if isBlank c ∨ c = ')' then .dangling else .negation

/-- The characters of a word after its first one. -/
def wordTail (s : Text) : Text := s.takeWhile fun c => !isBoundary c

/-- What follows those characters. -/
def afterWord (s : Text) : Text := s.dropWhile fun c => !isBoundary c

theorem length_afterWord_le (s : Text) : (afterWord s).length ≤ s.length :=
  (List.dropWhile_sublist _).length_le

/-- Lexes the rest of a query. `previous` is the character to the left, `position` the place of
the next one, and `opened` holds the places of the open parentheses, innermost first. -/
def scan (limit : Int) (previous : Option Char) (position : Nat) (opened : List Nat) :
    Text → Except Fault (List Token)
  | [] =>
    match opened.getLast? with
    | some p => .error (.unmatchedOpening p)
    | none => .ok []
  | c :: s =>
    if isBlank c then scan limit (some c) (position + 1) opened s
    else if c = '(' then
      if limit < opened.length + 1 then .error (.tooDeep limit position)
      else
        (⟨.opening, [c], position⟩ :: ·) <$>
          scan limit (some c) (position + 1) (position :: opened) s
    else if c = ')' then
      match opened with
      | [] => .error (.unmatchedClosing position)
      | _ :: opened =>
        (⟨.closing, [c], position⟩ :: ·) <$> scan limit (some c) (position + 1) opened s
    else if c = '-' ∧ startsTerm previous ∧ Hyphen.before s.head? = .dangling then
      .error (.danglingNot position)
    else if c = '-' ∧ startsTerm previous ∧ Hyphen.before s.head? = .negation then
      (⟨.not, [c], position⟩ :: ·) <$> scan limit (some c) (position + 1) opened s
    else
      let w := c :: wordTail s
      (⟨.ofWord w, w, position⟩ :: ·) <$>
        scan limit w.getLast? (position + w.length) opened (afterWord s)
termination_by s => s.length
decreasing_by
  all_goals simp only [List.length_cons]
  all_goals have := length_afterWord_le s
  all_goals omega

/-- The tokens of a query whose parentheses nest at most `limit` deep. -/
def tokenize (q : Text) (limit : Int) : Except Fault (List Token) := scan limit none 0 [] q

end Headline.Query
