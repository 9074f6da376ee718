import Headline.Number.Binary64
import Headline.Text.Blank
import Headline.Text.Quoted

/-!
# Numbers in free text

People write integers with an optional sign, digits of any script and single underscores between
digits, and decimals with a point, an exponent or the words for infinity and not-a-number. Blanks
around a number do not count.
-/

namespace Headline

/-- Why a text is no number. -/
inductive LiteralFault where
  | notInteger (s : Text)
  | tooManyDigits (count : Nat)
  | notDecimal (s : Text)
  deriving DecidableEq, Repr

namespace LiteralFault

/-- The wording of the fault. A long text is cut off in the wording for integers. -/
def message : LiteralFault → Text
  | notInteger s => "invalid literal for int() with base 10: ".toList ++ s.quoted.take 200
  | tooManyDigits count =>
    "Exceeds the limit (4300 digits) for integer string conversion: value has ".toList
      ++ Text.ofNat count
      ++ " digits; use sys.set_int_max_str_digits() to increase the limit".toList
  | notDecimal s => "could not convert string to float: ".toList ++ s.quoted

end LiteralFault

/-- The most digits an integer may have. -/
def maxIntegerDigits : Nat := 4300

/-- A blank that may stand around a number: any but the four ASCII separators. -/
def isNumberMargin (c : Char) : Bool := isBlank c && !(0x1C ≤ c.toNat && c.toNat ≤ 0x1F)

/-- Whether a number is negative, and what follows its optional sign. -/
def splitSign : Text → Bool × Text
  | '-' :: s => (true, s)
  | '+' :: s => (false, s)
  | s => (false, s)

/-- The values of digits of any script, with single underscores allowed between them. -/
def digitValues? (s : Text) : Option (List Nat) :=
  let pieces := Text.splitAt '_' s
  if pieces.any List.isEmpty then none else pieces.flatten.mapM decimalValue?

/-- Reads an integer. -/
def readInteger (s : Text) : Except LiteralFault Int :=
  let (negative, body) := splitSign (Text.trimBy isNumberMargin s)
  match digitValues? body with
  | none => .error (.notInteger s)
  | some ds =>
    if maxIntegerDigits < ds.length then .error (.tooManyDigits ds.length)
    else .ok (if negative then -(numberOfDigits ds : Int) else numberOfDigits ds)

/-- Reads a positive integer. -/
def readPositive? (s : Text) : Option Nat :=
  match readInteger s with
  | .ok (.ofNat (n + 1)) => some (n + 1)
  | _ => none

/-- What to say about a text that is no positive integer. -/
def notPositive (s : Text) : Text := "expected a positive integer, got ".toList ++ s.quoted

/-- The text with every digit written in ASCII. -/
def asciiDigits (s : Text) : Text :=
  s.map fun c => ((decimalValue? c).map Nat.digitChar).getD c

/-- Drops underscores, provided each of them stands between two digits. -/
def dropUnderscores? (previous : Option Char) : Text → Option Text
  | [] => some []
  | '_' :: s =>
    if previous.any Char.isDigit ∧ s.head?.any Char.isDigit then dropUnderscores? (some '_') s
    else none
  | c :: s => (c :: ·) <$> dropUnderscores? (some c) s

/-- Reads the exponent part of a decimal; an empty text is the exponent zero. -/
def readExponent? : Text → Option Int
  | [] => some 0
  | e :: s =>
    if e = 'e' ∨ e = 'E' then
      let (negative, ds) := splitSign s
      if ds.isEmpty then none
      else (ds.mapM asciiDigit?).map fun ds =>
        if negative then -(numberOfDigits ds : Int) else numberOfDigits ds
    else none

/-- Reads an unsigned decimal in ASCII. -/
def readUnsigned? (negative : Bool) (s : Text) : Option Binary64 :=
  let lower := Text.lowerAscii s
  if lower = "inf".toList ∨ lower = "infinity".toList then some (.infinite negative)
  else if lower = "nan".toList then some .nan
  else
    let whole := s.takeWhile Char.isDigit
    let rest := s.dropWhile Char.isDigit
    let (fraction, rest) := match rest with
      | '.' :: r => (r.takeWhile Char.isDigit, r.dropWhile Char.isDigit)
      | r => ([], r)
    if whole.isEmpty ∧ fraction.isEmpty then none
    else (readExponent? rest).map fun e =>
      .ofDecimal negative (numberOfDigits ((whole ++ fraction).filterMap asciiDigit?))
        (e - fraction.length)

/-- Reads a decimal. -/
def readDecimal (s : Text) : Except LiteralFault Binary64 :=
  let (negative, body) := splitSign (asciiDigits (Text.trimBy isNumberMargin s))
  match dropUnderscores? none body >>= readUnsigned? negative with
  | some x => .ok x
  | none => .error (.notDecimal s)

end Headline
