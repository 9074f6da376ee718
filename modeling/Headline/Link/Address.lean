import Headline.Text.Basic

/-!
# Addresses in brackets

The host of a link may be written in brackets. Inside them stands a numeric address: of version 6,
as eight groups of hexadecimal digits of which one run of zeros may be left out, or of a later
version, which its first letter announces.
-/

namespace Headline.Link

/-- Whether a character is a hexadecimal digit. -/
def isHexDigit (c : Char) : Bool :=
  c.isDigit || ('a' ≤ c && c ≤ 'f') || ('A' ≤ c && c ≤ 'F')

/-- A number from 0 to 255, without zeros in front. -/
def isAddressByte (s : Text) : Bool :=
  !s.isEmpty && s.all Char.isDigit && s.length ≤ 3 && (s == ['0'] || s.head? != some '0')
    && s.foldl (fun n c => 10 * n + (c.toNat - 48)) 0 ≤ 255

/-- An address of version 4: four bytes with points between them. -/
def isVersion4 (s : Text) : Bool :=
  let parts := Text.splitAt '.' s
  parts.length == 4 && parts.all isAddressByte

/-- A group of an address of version 6. -/
def isGroup (s : Text) : Bool := !s.isEmpty && s.length ≤ 4 && s.all isHexDigit

/-- The groups before and after a gap. An empty group at an end is part of the gap when it touches
it. -/
def isGapped (before after : List Text) : Bool :=
  let before := if before == [[]] then [] else before
  let after := if after == [[]] then [] else after
  before.all isGroup && after.all isGroup && before.length + after.length < 8

/-- The groups of an address, an address of version 4 at the end counting for two. -/
def groups? (s : Text) : Option (List Text) :=
  let parts := Text.splitAt ':' s
  match parts.getLast? with
  | some last =>
    if parts.length < 3 then none
    else if '.' ∈ last then
      if isVersion4 last then some (parts.dropLast ++ [['0'], ['0']]) else none
    else some parts
  | none => none

/-- Where gaps stand among the inner groups. -/
def gaps (parts : List Text) : List Nat :=
  (List.range parts.length).filter fun i =>
    0 < i && i + 1 < parts.length && (parts[i]?.map List.isEmpty).getD false

/-- An address of version 6 without a zone. -/
def isVersion6Plain (s : Text) : Bool :=
  match groups? s with
  | none => false
  | some parts =>
    parts.length ≤ 9 &&
      match gaps parts with
      | [] => parts.length == 8 && parts.all isGroup
      | [i] => isGapped (parts.take i) (parts.drop (i + 1))
      | _ => false

/-- An address of version 6, with a zone after a percent sign if it has one. -/
def isVersion6 (s : Text) : Bool :=
  !s.contains '/' &&
    match Text.splitAt '%' s with
    | [address] => isVersion6Plain address
    | [address, zone] => !zone.isEmpty && isVersion6Plain address
    | _ => false

/-- An address of a later version: its number in hexadecimal digits, a point, and some text. -/
def isLaterVersion (s : Text) : Bool :=
  match s with
  | 'v' :: s =>
    !(s.takeWhile isHexDigit).isEmpty &&
      match s.dropWhile isHexDigit with
      | '.' :: _ :: _ => true
      | _ => false
  | _ => false

end Headline.Link
