import Headline.Text.Basic

/-!
# Log records

What the program has to say about its own work: a severity, the part of the program that speaks,
and a message.
-/

namespace Headline.Log

/-- How severe a record is. -/
inductive Severity where
  | info
  | warning
  | error
  deriving DecidableEq, Repr

/-- The rank of a severity; thresholds are compared with it. -/
def Severity.rank : Severity → Nat
  | info => 20
  | warning => 30
  | error => 40

/-- The name of a severity. -/
def Severity.name : Severity → Text
  | info => "INFO".toList
  | warning => "WARNING".toList
  | error => "ERROR".toList

/-- A message with its severity and the part of the program that it comes from. -/
structure Record where
  severity : Severity
  origin : Text
  message : Text
  deriving DecidableEq, Repr

/-- The record as one line, without a time. -/
def Record.line (r : Record) : Text :=
  r.severity.name ++ ' ' :: r.origin ++ ": ".toList ++ r.message

end Headline.Log
