import Headline.Text.Basic

/-!
# Styled text

A plain text with spans that carry a style. How text is added to it is left open (`ofPieces`); in
the usual way five control characters never reach it (`append`).
-/

namespace Headline.Report

/-- How a span looks. -/
inductive Style where
  | yellow
  | bold
  | dim
  deriving DecidableEq, Repr

/-- The name of a style. -/
def Style.name : Style → Text
  | yellow => "yellow".toList
  | bold => "bold".toList
  | dim => "dim".toList

/-- The stretch of a text from `start` to `stop`, with its style. -/
structure Span where
  start : Nat
  stop : Nat
  style : Style
  deriving DecidableEq, Repr

/-- The control characters that a terminal would act on: bell, backspace, vertical tab, form feed
and carriage return. -/
def isControl (c : Char) : Bool := [0x07, 0x08, 0x0B, 0x0C, 0x0D].contains c.toNat

/-- The text without these. -/
def dropControls (s : Text) : Text := s.filter fun c => !isControl c

/-- A text and its spans, in order. -/
structure StyledText where
  plain : Text
  spans : List Span
  deriving DecidableEq, Repr

namespace StyledText

/-- A way to add text at the end of a styled text, in a style or in none. -/
abbrev Append := StyledText → Text → Option Style → StyledText

/-- The empty text. -/
def empty : StyledText := ⟨[], []⟩

/-- The text made of several pieces. -/
def ofPieces (append : Append) (pieces : List (Text × Option Style)) : StyledText :=
  pieces.foldl (fun t p => append t p.1 p.2) empty

/-- Adds text at the end, without control characters. Text with a style gets a span of its own. -/
def append : Append := fun t s style =>
  if s.isEmpty then t
  else
    let added := dropControls s
    let start := t.plain.length
    { plain := t.plain ++ added
      spans := t.spans ++ (style.map fun style => ⟨start, start + added.length, style⟩).toList }

end StyledText

end Headline.Report
