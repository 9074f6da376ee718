import Headline.Json.Value
import Headline.Number.Literal
import Headline.Number.Shortest

/-!
# Values in settings

Settings are written by hand, so numbers may come as texts or as truth values, and every value
counts as true or false. `Value.shown` is the form in which messages name a value.
-/

namespace Headline.Json

/-- Why a value is no number of the wanted kind. -/
inductive ConversionFault where
  | wrongType
  | literal (fault : LiteralFault)
  | tooLarge
  | infinite
  | notANumber
  deriving DecidableEq, Repr

/-- The wording of the fault. -/
def ConversionFault.message : ConversionFault → Text
  | wrongType => "wrong type".toList
  | literal f => f.message
  | tooLarge => "int too large to convert to float".toList
  | infinite => "cannot convert float infinity to integer".toList
  | notANumber => "cannot convert float NaN to integer".toList

namespace Value

/-- The integer of a value. Fractions are cut off. -/
def toInteger : Value → Except ConversionFault Int
  | int n => .ok n
  | bool b => .ok (if b then 1 else 0)
  | float (.finite negative mantissa exponent) => .ok (Binary64.truncate negative mantissa exponent)
  | float (.infinite _) => .error .infinite
  | float .nan => .error .notANumber
  | string s => (readInteger s).mapError .literal
  | null | array _ | object _ => .error .wrongType

/-- The binary number of a value. -/
def toBinary64 : Value → Except ConversionFault Binary64
  | int n =>
    match Binary64.ofInt? n with
    | some x => .ok x
    | none => .error .tooLarge
  | bool b => .ok (.ofRatio false (if b then 1 else 0) 1)
  | float x => .ok x
  | string s => (readDecimal s).mapError .literal
  | null | array _ | object _ => .error .wrongType

/-- Whether a value counts as true: all do but zero, the empty text and the empty collections. -/
def truthy : Value → Bool
  | null => false
  | bool b => b
  | int n => n != 0
  | float (.finite _ mantissa _) => mantissa != 0
  | float _ => true
  | string s => !s.isEmpty
  | array vs => !vs.isEmpty
  | object ms => !ms.isEmpty

mutual

/-- A value inside another one: like a value by itself, but with texts in quotes. -/
def nested : Value → Text
  | null => "None".toList
  | bool b => (if b then "True" else "False").toList
  | int n => Text.ofInt n
  | float x => x.text
  | string s => s.quoted
  | array vs => '[' :: Text.join ", ".toList (nestedElements vs) ++ [']']
  | object ms => '{' :: Text.join ", ".toList (nestedMembers ms) ++ ['}']

/-- The elements of an array. -/
def nestedElements : List Value → List Text
  | [] => []
  | v :: vs => nested v :: nestedElements vs

/-- The members of an object, each with its name. -/
def nestedMembers : List (Text × Value) → List Text
  | [] => []
  | (name, v) :: ms => (name.quoted ++ ": ".toList ++ nested v) :: nestedMembers ms

end

/-- The text that shows a value. -/
def shown : Value → Text
  | string s => s
  | v => v.nested

end Value

end Headline.Json
