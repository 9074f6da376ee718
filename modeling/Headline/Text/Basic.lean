/-!
# Texts

A text is its list of characters, so a position in it counts characters. `occursIn_iff` ties the
Boolean test for a contiguous piece to the infix order on lists.
-/

namespace Headline

/-- A text, as the list of its characters. -/
abbrev Text := List Char

namespace Text

/-- Whether `w` stands contiguously somewhere in the second text. -/
def occursIn (w : Text) : Text → Bool
  | [] => w.isEmpty
  | c :: s => w.isPrefixOf (c :: s) || occursIn w s

theorem occursIn_iff {w s : Text} : occursIn w s = true ↔ w <:+: s := by
  induction s with
  | nil => simp [occursIn]
  | cons c s ih => simp [occursIn, ih, List.infix_cons_iff]

/-- The texts in order, with `sep` between neighbours. -/
def join (sep : Text) (parts : List Text) : Text := sep.intercalate parts

/-- Splits at every `c`; a text without it is a single piece. -/
def splitAt (c : Char) : Text → List Text
  | [] => [[]]
  | d :: s =>
    if d = c then [] :: splitAt c s
    else match splitAt c s with
      | [] => [[d]]
      | piece :: pieces => (d :: piece) :: pieces

/-- Cuts at the first character that satisfies `p`: what stands before it, and the rest from it
on. -/
def cutAt (p : Char → Bool) (s : Text) : Text × Text :=
  (s.takeWhile fun c => !p c, s.dropWhile fun c => !p c)

/-- Drops trailing characters that satisfy `p`. -/
def dropTrailing (p : Char → Bool) (s : Text) : Text := (s.reverse.dropWhile p).reverse

/-! ## Numbers in base ten -/

/-- The decimal digits of a natural number. -/
def ofNat (n : Nat) : Text := Nat.toDigits 10 n

/-- The decimal digits of an integer, after a minus sign when it is negative. -/
def ofInt : Int → Text
  | .ofNat n => ofNat n
  | .negSucc n => '-' :: ofNat (n + 1)

/-- Exactly `width` decimal digits: the last ones of `n`, with zeros in front. -/
def digits : (width n : Nat) → Text
  | 0, _ => []
  | width + 1, n => digits width (n / 10) ++ [Nat.digitChar (n % 10)]

@[simp] theorem length_digits (width n : Nat) : (digits width n).length = width := by
  induction width generalizing n with
  | zero => rfl
  | succ width ih => simp [digits, ih]

/-- The text with enough spaces in front to reach `width`. -/
def padLeft (width : Nat) (s : Text) : Text := List.replicate (width - s.length) ' ' ++ s

/-- The text with enough spaces after it to reach `width`. -/
def padRight (width : Nat) (s : Text) : Text := s ++ List.replicate (width - s.length) ' '

/-- Lower-cases the ASCII letters and leaves all else alone. -/
def lowerAscii (s : Text) : Text := s.map Char.toLower

/-- Upper-cases the ASCII letters and leaves all else alone. -/
def upperAscii (s : Text) : Text := s.map Char.toUpper

end Text

end Headline
