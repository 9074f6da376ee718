import Headline.Number.Binary64

/-!
# Shortest decimal text

A finite number is written with the fewest digits that read back as the same number, and of those
the nearest. Texts are positional while the decimal point stays within sixteen digits after the
first digit or four zeros before it, and have an exponent outside that range.
-/

namespace Headline.Binary64

/-- A positive decimal: the digits, read as a number, times a power of ten. -/
structure Decimal where
  digits : Nat
  exponent : Int
  deriving DecidableEq, Repr

/-- A positive rational with the half-open or closed interval of the reals that round to it: all
four parts are numerators over `den`. -/
structure Rounding where
  value : Nat
  low : Nat
  high : Nat
  den : Nat
  closed : Bool

/-- The interval of a positive finite number. Below a power of two the gap is half as wide. -/
def rounding (mantissa : Nat) (exponent : Int) : Rounding :=
  let narrow := mantissa = mantissaBound / 2 ∧ minExponent < exponent
  let scale := twoTo exponent.toNat
  { value := 4 * mantissa * scale
    low := (4 * mantissa - if narrow then 1 else 2) * scale
    high := (4 * mantissa + 2) * scale
    den := 4 * twoTo (-exponent).toNat
    closed := mantissa % 2 = 0 }

namespace Rounding

/-- Whether `n * 10 ^ k` rounds to the value. -/
def admits (r : Rounding) (n : Nat) (k : Int) : Bool :=
  let x := n * tenTo k.toNat * r.den
  let unit := tenTo (-k).toNat
  if r.closed then r.low * unit ≤ x && x ≤ r.high * unit
  else r.low * unit < x && x < r.high * unit

/-- The multiple of `10 ^ k` that rounds to the value and is nearest to it, if one does. -/
def nearestAt (r : Rounding) (k : Int) : Option Nat :=
  let unit := tenTo k.toNat * r.den
  let value := r.value * tenTo (-k).toNat
  let below := value / unit
  let nearest := roundDiv value unit
  if r.admits nearest k then some nearest
  else if r.admits below k then some below
  else if r.admits (below + 1) k then some (below + 1)
  else none

/-- The number of digits in front of the decimal point; zero or less for a value below one. -/
def pointPosition (r : Rounding) : Int :=
  if r.den ≤ r.value then (Text.ofNat (r.value / r.den)).length
  else 1 - ((List.range 400).find? fun j => r.den ≤ r.value * tenTo j).getD 400

/-- The decimal with the fewest digits that rounds to the value. -/
def shortest (r : Rounding) : Decimal :=
  let point := r.pointPosition
  ((List.range 18).findSome? fun (count : Nat) =>
    (r.nearestAt (point - count)).bind fun n =>
      if n = 0 then none else some (Decimal.mk n (point - count))).getD ⟨r.value / r.den, 0⟩

end Rounding

/-- Drops zeros at the end. -/
def dropZeros (ds : Text) : Text := Text.dropTrailing (· == '0') ds

/-- Writes digits with the decimal point after `point` of them. -/
def positional (ds : Text) (point : Int) : Text :=
  if point ≤ 0 then "0.".toList ++ List.replicate (-point).toNat '0' ++ ds
  else
    let whole := ds.take point.toNat
    let fraction := ds.drop point.toNat
    whole ++ List.replicate (point.toNat - whole.length) '0' ++ '.' ::
      (if fraction.isEmpty then ['0'] else fraction)

/-- Writes one digit, the others as a fraction, and an exponent of at least two digits. -/
def scientific (ds : Text) (exponent : Int) : Text :=
  let size := Text.ofNat exponent.natAbs
  ds.take 1 ++ (if ds.length ≤ 1 then [] else '.' :: ds.drop 1)
    ++ ['e', if exponent < 0 then '-' else '+']
    ++ (if size.length < 2 then '0' :: size else size)

/-- The text of a positive decimal. -/
def layout (d : Decimal) : Text :=
  let all := Text.ofNat d.digits
  let point := all.length + d.exponent
  let ds := dropZeros all
  if -4 < point ∧ point ≤ 16 then positional ds point else scientific ds (point - 1)

/-- The shortest text of a number. -/
def text : Binary64 → Text
  | nan => "nan".toList
  | infinite negative => (if negative then ['-'] else []) ++ "inf".toList
  | finite negative mantissa exponent =>
    (if negative then ['-'] else []) ++
      if mantissa = 0 then "0.0".toList else layout (rounding mantissa exponent).shortest

end Headline.Binary64
