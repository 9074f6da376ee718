import Headline.Text.Blank

/-!
# Tokens of a query

A token carries its spelling and the position of its first character. Adjacent operands mean
conjunction: `joinAdjacent` writes the missing `AND` between them.
-/

namespace Headline.Query

/-- What a token is for. -/
inductive TokenKind where
  | word
  | and
  | or
  | not
  | opening
  | closing
  deriving DecidableEq, Repr

/-- A lexical token of a query. -/
structure Token where
  kind : TokenKind
  spelling : Text
  position : Nat
  deriving DecidableEq, Repr

namespace TokenKind

/-- The name shown for a kind. -/
def name : TokenKind → Text
  | word => "WORD".toList
  | and => "AND".toList
  | or => "OR".toList
  | not => "NOT".toList
  | opening => "LEFT_PAREN".toList
  | closing => "RIGHT_PAREN".toList

/-- A left operand ends with a token of this kind. -/
def endsOperand : TokenKind → Bool
  | word | closing => true
  | _ => false

/-- A right operand starts with a token of this kind. -/
def startsOperand : TokenKind → Bool
  | word | not | opening => true
  | _ => false

/-- A word is an operator when it spells one, in small or capital letters. -/
def ofWord (w : Text) : TokenKind :=
  let capitals := Text.upperAscii w
  if capitals = "AND".toList then .and else if capitals = "OR".toList then .or else .word

end TokenKind

/-- The `AND` that stands for adjacency in front of `right`. -/
def Token.adjacency (right : Token) : Token := ⟨.and, "AND".toList, right.position⟩

/-- Writes an `AND` between every two tokens where one operand ends and the next one starts. -/
def joinAdjacent : List Token → List Token
  | left :: right :: rest =>
    if left.kind.endsOperand ∧ right.kind.startsOperand then
      left :: right.adjacency :: joinAdjacent (right :: rest)
    else left :: joinAdjacent (right :: rest)
  | ts => ts

end Headline.Query
