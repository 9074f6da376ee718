import Headline.Text.Octets

/-!
# Decoding UTF-8

A character takes one to four octets, the first of which tells how many. What is no character is a
fault, which covers the octets that could still have become one; reading goes on after them when
faults are replaced instead of reported.
-/

namespace Headline.Utf8

/-- What is wrong with octets. -/
inductive Reason where
  | start
  | continuation
  | ending
  deriving DecidableEq, Repr

/-- Octets that are no character: the first of them, their place and their number. -/
structure Fault where
  first : UInt8
  position : Nat
  count : Nat
  reason : Reason
  deriving DecidableEq, Repr

/-- The wording of a reason. -/
def Reason.wording : Reason → Text
  | start => "invalid start byte".toList
  | continuation => "invalid continuation byte".toList
  | ending => "unexpected end of data".toList

/-- Two lower-case hexadecimal digits of an octet. -/
def hexOctet (b : UInt8) : Text :=
  [Nat.digitChar (b.toNat / 16), Nat.digitChar (b.toNat % 16)]

/-- The wording of the fault. -/
def Fault.message (f : Fault) : Text :=
  let place :=
    if f.count ≤ 1 then
      "byte 0x".toList ++ hexOctet f.first ++ " in position ".toList ++ Text.ofNat f.position
    else
      "bytes in position ".toList ++ Text.ofNat f.position ++ '-' ::
        Text.ofNat (f.position + f.count - 1)
  "'utf-8' codec can't decode ".toList ++ place ++ ": ".toList ++ f.reason.wording

/-! ## One character -/

/-- How many octets follow the first one of a character. -/
def tailSize? (b : UInt8) : Option Nat :=
  if b < 0x80 then some 0
  else if b < 0xC2 then none
  else if b < 0xE0 then some 1
  else if b < 0xF0 then some 2
  else if b < 0xF5 then some 3
  else none

/-- The bounds of the second octet. They leave out longer spellings than necessary, halves of
characters outside the basic plane, and numbers beyond the last character. -/
def secondBounds (b : UInt8) : UInt8 × UInt8 :=
  if b = 0xE0 then (0xA0, 0xBF)
  else if b = 0xED then (0x80, 0x9F)
  else if b = 0xF0 then (0x90, 0xBF)
  else if b = 0xF4 then (0x80, 0x8F)
  else (0x80, 0xBF)

/-- How many of the next `n` octets continue a character, the first of them within `bounds`. -/
def tailLength (bounds : UInt8 × UInt8) : (n : Nat) → Octets → Nat
  | 0, _ => 0
  | _ + 1, [] => 0
  | n + 1, b :: s =>
    if bounds.1 ≤ b ∧ b ≤ bounds.2 then tailLength (0x80, 0xBF) n s + 1 else 0

/-- The number that a character's octets stand for. -/
def scalar (b : UInt8) (tail : Octets) : Nat :=
  let lead :=
    match tail.length with
    | 0 => b.toNat
    | 1 => b.toNat % 32
    | 2 => b.toNat % 16
    | _ => b.toNat % 8
  tail.foldl (fun n t => n * 64 + t.toNat % 64) lead

/-- What stands at the front: a character and the number of its octets after the first, or a fault
and the number of the octets that it covers after the first. -/
inductive Step where
  | char (c : Char) (more : Nat)
  | fault (reason : Reason) (more : Nat)

/-- Reads what stands at the front. -/
def step (b : UInt8) (s : Octets) : Step :=
  match tailSize? b with
  | none => .fault .start 0
  | some size =>
    let good := tailLength (secondBounds b) size s
    if good = size then .char (Char.ofNat (scalar b (s.take size))) size
    else if s.length ≤ good then .fault .ending good
    else .fault .continuation good

/-! ## Whole texts -/

/-- The text of octets that start at a position. -/
def decodeFrom (position : Nat) : Octets → Except Fault Text
  | [] => .ok []
  | b :: s =>
    match step b s with
    | .char c more => (c :: ·) <$> decodeFrom (position + 1 + more) (s.drop more)
    | .fault reason more => .error ⟨b, position, more + 1, reason⟩
termination_by s => s.length
decreasing_by
  simp only [List.length_drop, List.length_cons]
  omega

/-- The text of octets. -/
def decode (s : Octets) : Except Fault Text := decodeFrom 0 s

/-- The text of octets, with the replacement character for each fault. -/
def decodeLossy : Octets → Text
  | [] => []
  | b :: s =>
    match step b s with
    | .char c more => c :: decodeLossy (s.drop more)
    | .fault _ more => '\uFFFD' :: decodeLossy (s.drop more)
termination_by s => s.length
decreasing_by
  all_goals
    simp only [List.length_drop, List.length_cons]
    omega

end Headline.Utf8
