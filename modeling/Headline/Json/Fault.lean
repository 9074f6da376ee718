import Headline.Number.Literal

/-!
# Faults of a JSON text

A fault says what was expected and where. Readers know how much text is left at a fault; the place
shown to the user is a line, a column and an offset, all counted in characters. Arrays and objects
nest only so deep.
-/

namespace Headline.Json

/-- What is wrong with a JSON text. -/
inductive FaultKind where
  | expectingValue
  | expectingName
  | expectingColon
  | expectingComma
  | extraData
  | unterminatedString
  | controlCharacter
  | badEscape
  | badUnicodeEscape
  | byteOrderMark
  deriving DecidableEq, Repr

/-- The wording of a fault without its place. -/
def FaultKind.wording : FaultKind → Text
  | expectingValue => "Expecting value".toList
  | expectingName => "Expecting property name enclosed in double quotes".toList
  | expectingColon => "Expecting ':' delimiter".toList
  | expectingComma => "Expecting ',' delimiter".toList
  | extraData => "Extra data".toList
  | unterminatedString => "Unterminated string starting at".toList
  | controlCharacter => "Invalid control character at".toList
  | badEscape => "Invalid \\escape".toList
  | badUnicodeEscape => "Invalid \\uXXXX escape".toList
  | byteOrderMark => "Unexpected UTF-8 BOM (decode using utf-8-sig)".toList

/-- What holds other values. -/
inductive Container where
  | array
  | object
  deriving DecidableEq, Repr

/-- The name of a container. -/
def Container.name : Container → Text
  | array => "array".toList
  | object => "object".toList

/-- A fault met by a reader: its kind and the length of the text from it on, an integer with too
many digits, or a container inside of too many others. -/
inductive Fault where
  | malformed (kind : FaultKind) (left : Nat)
  | longInteger (digits : Nat)
  | tooDeep (container : Container)
  deriving DecidableEq, Repr

/-- A fault of a whole text. -/
inductive Error where
  | syntaxError (kind : FaultKind) (line column offset : Nat)
  | longInteger (digits : Nat)
  | tooDeep (container : Container)
  deriving DecidableEq, Repr

/-- The wording of the error. -/
def Error.message : Error → Text
  | syntaxError kind line column offset =>
    kind.wording ++ ": line ".toList ++ Text.ofNat line ++ " column ".toList ++ Text.ofNat column
      ++ " (char ".toList ++ Text.ofNat offset ++ [')']
  | longInteger digits => (LiteralFault.tooManyDigits digits).message
  | tooDeep container =>
    "maximum recursion depth exceeded while decoding a JSON ".toList ++ container.name
      ++ " from a unicode string".toList

/-- The line and the column of an offset, both counted from one. -/
def place (doc : Text) (offset : Nat) : Nat × Nat :=
  let before := doc.take offset
  (before.count '\n' + 1, (before.reverse.takeWhile (· != '\n')).length + 1)

/-- The fault of a whole text, with its place. -/
def Fault.within (doc : Text) : Fault → Error
  | .malformed kind left =>
    let offset := doc.length - left
    let (line, column) := place doc offset
    .syntaxError kind line column offset
  | .longInteger digits => .longInteger digits
  | .tooDeep container => .tooDeep container

end Headline.Json
