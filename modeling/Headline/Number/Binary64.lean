import Headline.Text.DecimalDigit

/-!
# Binary floating point with 64 bits

A finite number is a signed mantissa below 2 ^ 53 times a power of two that is at least -1074.
`ofRatio` rounds a quotient of natural numbers to the nearest such number, a tie going to the even
mantissa.
-/

namespace Headline

/-- The numbers of the 64-bit binary format. -/
inductive Binary64 where
  | finite (negative : Bool) (mantissa : Nat) (exponent : Int)
  | infinite (negative : Bool)
  | nan
  deriving DecidableEq, Repr

namespace Binary64

/-- The smallest exponent of a finite number. -/
def minExponent : Int := -1074

/-- The largest exponent of a finite number. -/
def maxExponent : Int := 971

/-- Mantissas are smaller than this: 2 to the power of 53. -/
def mantissaBound : Nat := 9007199254740992

/-- A power of two. -/
def twoTo (n : Nat) : Nat := Nat.pow 2 n

/-- A power of ten. -/
def tenTo (n : Nat) : Nat := Nat.pow 10 n

/-- The quotient rounded to the nearest integer, a tie going to the even one. -/
def roundDiv (num den : Nat) : Nat :=
  let q := num / den
  let r := num % den
  if den < 2 * r ∨ (2 * r = den ∧ q % 2 = 1) then q + 1 else q

/-- The quotient `num / den`, divided by `2 ^ exponent` and rounded. -/
def mantissaAt (num den : Nat) (exponent : Int) : Nat :=
  roundDiv (num * twoTo (-exponent).toNat) (den * twoTo exponent.toNat)

/-- The exponent at which `num / den` has a mantissa of 53 bits, or the smallest one. -/
def exponentOf (num den : Nat) : Int :=
  let guess := (num.log2 : Int) - den.log2 - 53
  let tight :=
    if num * twoTo (-guess).toNat < mantissaBound * (den * twoTo guess.toNat) then guess
    else guess + 1
  max tight minExponent

/-- The nearest number to `num / den` with the given sign. Beyond the largest finite number the
result is infinite. -/
def ofRatio (negative : Bool) (num den : Nat) : Binary64 :=
  if num = 0 then finite negative 0 minExponent
  else
    let e := exponentOf num den
    let m := mantissaAt num den e
    let (m, e) := if m = mantissaBound then (m / 2, e + 1) else (m, e)
    if maxExponent < e then infinite negative else finite negative m e

/-- The nearest number to `digits * 10 ^ exponent`. Exponents far outside the range of the format
are settled without the power of ten. -/
def ofDecimal (negative : Bool) (digits : Nat) (exponent : Int) : Binary64 :=
  let size := (Text.ofNat digits).length + exponent
  if digits = 0 ∨ size < -400 then finite negative 0 minExponent
  else if 400 < size then infinite negative
  else ofRatio negative (digits * tenTo exponent.toNat) (tenTo (-exponent).toNat)

/-- The nearest number to an integer, unless the integer is too large for the format. -/
def ofInt? (n : Int) : Option Binary64 :=
  match ofRatio (n < 0) n.natAbs 1 with
  | infinite _ => none
  | x => some x

/-- The integer part of a finite number, with its sign. -/
def truncate (negative : Bool) (mantissa : Nat) (exponent : Int) : Int :=
  let size : Nat := mantissa * twoTo exponent.toNat / twoTo (-exponent).toNat
  if negative then -size else size

end Binary64

end Headline
