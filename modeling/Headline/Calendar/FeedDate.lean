import Headline.Calendar.DateTime
import Headline.Text.DecimalDigit
import Headline.Text.Quoted

/-!
# Dates as the feed writes them

The feed writes a date like 2024年01月31日 15時04分05秒. Such a date may stand anywhere in a text, in
the digits of any script, and the leftmost one counts.
-/

namespace Headline.Calendar.FeedDate

/-- Why a text has no date. -/
inductive Fault where
  | absent (s : Text)
  | outOfRange (fault : RangeFault)
  deriving DecidableEq, Repr

/-- The wording of the fault. -/
def Fault.message : Fault → Text
  | absent s => "Invalid news date: ".toList ++ s.quoted
  | outOfRange f => f.message

/-- A place in the shape of a date: a digit, or a character that has to stand there. -/
inductive Place where
  | digit
  | mark (c : Char)
  deriving DecidableEq, Repr

/-- The shape of a date. -/
def shape : List Place :=
  [.digit, .digit, .digit, .digit, .mark '年', .digit, .digit, .mark '月', .digit, .digit,
   .mark '日', .mark ' ', .digit, .digit, .mark '時', .digit, .digit, .mark '分', .digit, .digit,
   .mark '秒']

/-- The values of the digits at the front of a text, if the text starts with the shape. -/
def matchFront : List Place → Text → Option (List Nat)
  | [], _ => some []
  | _ :: _, [] => none
  | .digit :: ps, c :: s =>
    match decimalValue? c with
    | some d => (d :: ·) <$> matchFront ps s
    | none => none
  | .mark m :: ps, c :: s => if c = m then matchFront ps s else none

/-- The values of the digits of the leftmost date in a text. -/
def search : Text → Option (List Nat)
  | [] => none
  | c :: s =>
    match matchFront shape (c :: s) with
    | some ds => some ds
    | none => search s

/-- The date and time that fourteen digits denote. -/
def ofDigits (ds : List Nat) : Except RangeFault DateTime :=
  let field := fun start width => numberOfDigits ((ds.drop start).take width)
  DateTime.ofParts (field 0 4) (field 4 2) (field 6 2) (field 8 2) (field 10 2) (field 12 2) 0

/-- The leftmost date in a text. -/
def parse (s : Text) : Except Fault DateTime :=
  match search s with
  | none => .error (.absent s)
  | some ds => (ofDigits ds).mapError .outOfRange

end Headline.Calendar.FeedDate
