import Headline.Query.Token
import Headline.Text.Quoted

/-!
# Faults of a query

A fault names what is structurally wrong with a query, the token at fault and, through it, the
position to show. Positions count characters of the query.
-/

namespace Headline.Query

/-- Why a query is rejected. -/
inductive Fault where
  | empty
  | unmatchedClosing (position : Nat)
  | unmatchedOpening (position : Nat)
  | tooDeep (limit : Int) (position : Nat)
  | danglingNot (position : Nat)
  | emptyGroup (position : Nat)
  | unclosed (position : Nat)
  | expectedTerm (owner : Token)
  | missingOperand (operator : Token)
  | unexpected (token : Token)
  deriving DecidableEq, Repr

namespace Fault

/-- The position to blame. -/
def position : Fault → Nat
  | empty => 0
  | unmatchedClosing p | unmatchedOpening p | tooDeep _ p | danglingNot p | emptyGroup p
  | unclosed p => p
  | expectedTerm t | missingOperand t | unexpected t => t.position

/-- The wording shown to the user. -/
def message : Fault → Text
  | empty => "Query is empty".toList
  | unmatchedClosing _ => "Unmatched ')'".toList
  | unmatchedOpening _ => "Unmatched '('".toList
  | tooDeep limit _ =>
    "Parentheses nested deeper than ".toList ++ Text.ofInt limit ++ " levels".toList
  | danglingNot _ => "'-' must be directly followed by a term".toList
  | emptyGroup _ => "Empty group '()'".toList
  | unclosed _ => "Unclosed '('".toList
  | expectedTerm owner => "Expected a term after ".toList ++ owner.spelling.quoted
  | missingOperand op => "Operator ".toList ++ op.spelling.quoted ++ " is missing an operand".toList
  | unexpected t => "Unexpected ".toList ++ t.spelling.quoted

end Fault

/-- A wording and the place it speaks of, which need not lie inside any query. -/
structure Diagnosis where
  message : Text
  position : Int
  deriving DecidableEq, Repr

/-- What there is to report about a fault. -/
def Fault.diagnosis (f : Fault) : Diagnosis := ⟨f.message, f.position⟩

/-- The wording with its position. -/
def Diagnosis.summary (d : Diagnosis) : Text :=
  d.message ++ " (at position ".toList ++ Text.ofInt d.position ++ ")".toList

end Headline.Query
