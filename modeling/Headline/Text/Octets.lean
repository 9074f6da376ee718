import Headline.Text.Basic

/-!
# Octets

The octets of a text in UTF-8, with an end that reads as zero. A text may hold halves of characters,
which have no octets.
-/

namespace Headline

/-- A sequence of octets. -/
abbrev Octets := List UInt8

namespace Text

/-! ## Halves of characters

Characters outside the basic plane have two halves, numbered from `0xD800` to `0xDFFF`. A text may
name one half without the other, but a half is no character: in its place stands the character of
the last plane with the same last digits, which is in private use. -/

/-- The character that stands for a half. -/
def ofHalf (unit : Nat) : Char := Char.ofNat (0x100000 + unit)

/-- Whether a character stands for a half. -/
def isHalf (c : Char) : Bool := 0x10D800 ≤ c.toNat && c.toNat ≤ 0x10DFFF

/-- Whether a text has octets: it holds no half by itself. -/
def isEncodable (s : Text) : Bool := s.all fun c => !isHalf c

end Text

/-- The octets of a text in UTF-8. -/
def Text.toOctets (s : Text) : Octets := s.flatMap String.utf8EncodeChar

namespace Octets

/-- The octet of an ASCII character. -/
def ofChar (c : Char) : UInt8 := c.toNat.toUInt8

/-- The octet at a place, zero past the end. -/
def octetAt (s : Octets) (i : Nat) : UInt8 := s.getD i 0

/-- The value of an ASCII digit. -/
def digit? (b : UInt8) : Option Nat :=
  if 48 ≤ b.toNat ∧ b.toNat ≤ 57 then some (b.toNat - 48) else none

/-- Whether an octet is an ASCII digit. -/
def isDigit (b : UInt8) : Bool := (digit? b).isSome

/-- Reads exactly `width` ASCII digits at the front. -/
def number? (width : Nat) (s : Octets) : Option Nat :=
  if s.length < width then none
  else ((s.take width).mapM digit?).map fun ds => ds.foldl (fun n d => 10 * n + d) 0

end Octets

end Headline
