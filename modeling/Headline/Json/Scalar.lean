import Headline.Json.Fault
import Headline.Json.Value
import Headline.Number.Literal

/-!
# Numbers and words in JSON

A number is the longest one that stands at the front of a text. It is an integer unless it has a
fraction or an exponent. Each scalar takes up some text (`length_lt_of_readScalar`).
-/

namespace Headline.Json

/-- The digits of a fraction at the front and what follows it; without a fraction, no digits. -/
def splitFraction : Text → Text × Text
  | '.' :: d :: r =>
    if d.isDigit then (d :: r.takeWhile Char.isDigit, r.dropWhile Char.isDigit)
    else ([], '.' :: d :: r)
  | s => ([], s)

/-- Whether an exponent at the front is negative, its digits, and what follows it; without an
exponent, no digits. -/
def splitExponent (s : Text) : Bool × Text × Text :=
  match s with
  | [] => (false, [], s)
  | e :: r =>
    let (negative, r) := splitSign r
    if (e = 'e' ∨ e = 'E') ∧ r.head?.any Char.isDigit then
      (negative, r.takeWhile Char.isDigit, r.dropWhile Char.isDigit)
    else (false, [], s)

/-- The digits in front of the point, and what follows: a single zero, or digits that start with
another one. -/
def splitWhole : Text → Text × Text
  | '0' :: r => (['0'], r)
  | s => (s.takeWhile Char.isDigit, s.dropWhile Char.isDigit)

/-- The number that digits spell. -/
def numeral (ds : Text) : Nat := numberOfDigits (ds.filterMap asciiDigit?)

/-- The number with a sign. -/
def signed (negative : Bool) (n : Nat) : Int := if negative then -n else n

/-- Reads the longest number at the front. -/
def readNumber (s : Text) : Except Fault (Value × Text) :=
  let unsigned := if s.head? = some '-' then s.drop 1 else s
  let negative := s.head? = some '-'
  let (whole, r) := splitWhole unsigned
  if whole.isEmpty then .error (.malformed .expectingValue s.length)
  else
    let (fraction, r) := splitFraction r
    let (small, power, r) := splitExponent r
    if fraction.isEmpty ∧ power.isEmpty then
      if maxIntegerDigits < whole.length then .error (.longInteger whole.length)
      else .ok (.int (signed negative (numeral whole)), r)
    else
      .ok (.float (.ofDecimal negative (numeral (whole ++ fraction))
        (signed small (numeral power) - fraction.length)), r)

theorem length_splitFraction_le (s : Text) : (splitFraction s).2.length ≤ s.length := by
  unfold splitFraction
  split
  · next d r =>
    have := (List.dropWhile_sublist Char.isDigit (l := r)).length_le
    split <;> simp only [List.length_cons] <;> omega
  · exact Nat.le_refl _

theorem length_splitSign_le (s : Text) : (splitSign s).2.length ≤ s.length := by
  unfold splitSign
  split <;> simp

theorem length_splitExponent_le (s : Text) : (splitExponent s).2.2.length ≤ s.length := by
  unfold splitExponent
  split
  · exact Nat.le_refl _
  · next e r =>
    have h₁ := length_splitSign_le r
    have h₂ := (List.dropWhile_sublist Char.isDigit (l := (splitSign r).2)).length_le
    simp only
    split <;> simp only [List.length_cons] <;> omega

theorem length_splitWhole (s : Text) :
    (splitWhole s).1.length + (splitWhole s).2.length = s.length := by
  unfold splitWhole
  split
  · simp only [List.length_cons, List.length_nil]; omega
  · rw [← List.length_append, List.takeWhile_append_dropWhile]

theorem length_lt_of_readNumber {s rest : Text} {v : Value}
    (h : readNumber s = .ok (v, rest)) : rest.length < s.length := by
  unfold readNumber at h
  generalize hu : (if s.head? = some '-' then s.drop 1 else s) = u at h
  have h₀ : u.length ≤ s.length := by
    subst hu
    split <;> simp
  have h₁ := length_splitWhole u
  have h₂ := length_splitFraction_le (splitWhole u).2
  have h₃ := length_splitExponent_le (splitFraction (splitWhole u).2).2
  simp only at h
  split at h
  · simp at h
  · next hw =>
    have : 0 < (splitWhole u).1.length := by
      cases hs : (splitWhole u).1 with
      | nil => simp [hs] at hw
      | cons => simp
    have hr : rest = (splitExponent (splitFraction (splitWhole u).2).2).2.2 := by
      split at h
      · split at h
        · simp at h
        · simp only [Except.ok.injEq, Prod.mk.injEq] at h
          exact h.2.symm
      · simp only [Except.ok.injEq, Prod.mk.injEq] at h
        exact h.2.symm
    rw [hr]
    omega

/-- The values that are written as a word. -/
def literals : List (Text × Value) :=
  [("null".toList, .null), ("true".toList, .bool true), ("false".toList, .bool false),
    ("NaN".toList, .float .nan), ("Infinity".toList, .float (.infinite false)),
    ("-Infinity".toList, .float (.infinite true))]

/-- Reads a literal or a number. -/
def readScalar (s : Text) : Except Fault (Value × Text) :=
  match literals.find? fun l => l.1.isPrefixOf s with
  | some l => .ok (l.2, s.drop l.1.length)
  | none => readNumber s

theorem length_lt_of_readScalar {s rest : Text} {v : Value}
    (h : readScalar s = .ok (v, rest)) : rest.length < s.length := by
  unfold readScalar at h
  split at h
  · next l hl =>
    simp only [Except.ok.injEq, Prod.mk.injEq] at h
    obtain ⟨-, rfl⟩ := h
    have hp : l.1.isPrefixOf s = true := by simpa using List.find?_some hl
    have hle := (List.isPrefixOf_iff_prefix.1 hp).length_le
    have hpos : 0 < l.1.length := by
      have hm := List.mem_of_find?_eq_some hl
      simp only [literals, List.mem_cons, List.not_mem_nil, or_false] at hm
      rcases hm with rfl | rfl | rfl | rfl | rfl | rfl <;> decide
    rw [List.length_drop]
    omega
  · exact length_lt_of_readNumber h

end Headline.Json
