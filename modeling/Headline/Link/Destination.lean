import Headline.Json.Chars
import Headline.Link.Request
import Headline.Number.Literal
import Headline.Text.Utf8

/-!
# Where a request goes

The authority of an address names a host and a port, and what follows it is asked for there. Before
anything is sent, the port has to be a number, host and path must not hold blanks or control
characters, and the head of the message has to fit into its character sets.
-/

namespace Headline.Link

/-! ## Escaped octets -/

/-- The octet that two hexadecimal digits name. -/
def octetOf? (a b : Char) : Option UInt8 :=
  match Json.hexValue? a, Json.hexValue? b with
  | some m, some n => some (16 * m + n).toUInt8
  | _, _ => none

/-- The octets of an ASCII text, in which `%` and two hexadecimal digits name an octet. -/
def unescapedOctets : Text → Octets
  | '%' :: a :: b :: s =>
    match octetOf? a b with
    | some octet => octet :: unescapedOctets s
    | none => Octets.ofChar '%' :: unescapedOctets (a :: b :: s)
  | c :: s => Octets.ofChar c :: unescapedOctets s
  | [] => []

/-- The text whose runs of ASCII are read as escaped octets, given the run so far. -/
def unescapeFrom (run : Text) : Text → Text
  | [] => Utf8.decodeLossy (unescapedOctets run)
  | c :: s =>
    if c.toNat < 0x80 then unescapeFrom (run ++ [c]) s
    else Utf8.decodeLossy (unescapedOctets run) ++ c :: unescapeFrom [] s

/-- The text without escapes. -/
def unescape (s : Text) : Text := if '%' ∈ s then unescapeFrom [] s else s

/-! ## Character sets -/

/-- Why a text cannot be written in a character set that has only the first `size` characters: its
first run of other ones is named. -/
def charsetFault? (charset : Text) (size : Nat) (s : Text) : Option Text :=
  match Text.cutAt (fun c => size ≤ c.toNat) s with
  | (_, []) => none
  | (before, c :: rest) =>
    let more := (rest.takeWhile fun c => size ≤ c.toNat).length
    let place :=
      if more = 0 then
        " character '".toList ++ Text.numericEscape c ++ "' in position ".toList
          ++ Text.ofNat before.length
      else
        " characters in position ".toList ++ Text.ofNat before.length ++ '-' ::
          Text.ofNat (before.length + more)
    some ('\'' :: charset ++ "' codec can't encode".toList ++ place
      ++ ": ordinal not in range(".toList ++ Text.ofNat size ++ [')'])

/-- Whether a line ends without a blank behind it, so that what follows would be a line of its
own. -/
def endsLine : Text → Bool
  | [] => false
  | c :: s =>
    (c == '\n' && !s.head?.any [' ', '\t'].contains) ||
      (c == '\r' && !s.head?.any [' ', '\t', '\n'].contains) || endsLine s

/-- Why a text cannot be the value of a header: its octets are named. -/
def headerFault? (s : Text) : Option Text :=
  if endsLine s then
    let quote := Text.quoteFor s
    let octets := s.flatMap fun c =>
      if c.toNat < 0x80 then Text.escapeChar quote c else Text.numericEscape c
    some ("Invalid header value b".toList ++ quote :: octets ++ [quote])
  else none

/-! ## Destinations -/

/-- Why a request is given up without an answer, in a way that callers do not reckon with. -/
inductive DialFault where
  | port (text : Text)
  | controlCharacter (part : Text) (c : Char)
  | portTooLarge
  | timeoutTooLarge
  deriving DecidableEq, Repr

/-- The wording of the fault. -/
def DialFault.message : DialFault → Text
  | port text => "nonnumeric port: '".toList ++ text ++ ['\'']
  | controlCharacter part c =>
    "URL can't contain control characters. ".toList ++ part.quoted ++ " (found at least ".toList
      ++ Text.quoted [c] ++ [')']
  | portTooLarge => "Python int too large to convert to C long".toList
  | timeoutTooLarge => "timestamp out of range for platform time_t".toList

/-- Where a request goes: to whom, and what is asked for. -/
structure Destination where
  authority : Text
  path : Text
  deriving DecidableEq, Repr

/-- The destination of a request. An address that has no authority goes to nobody. -/
def Request.destination (r : Request) : Destination :=
  match (Text.cutAt (· == ':') r.address).2 with
  | ':' :: '/' :: '/' :: rest =>
    let (authority, path) := Text.cutAt (fun c => c == '/' || c == '?' || c == '#') rest
    { authority := unescape authority
      path := if path.head? = some '/' then path else '/' :: path }
  | rest => ⟨[], rest.drop 1⟩

namespace Destination

/-- The port as it is written: what follows the last colon, unless a bracket closes behind it. -/
def portText? (d : Destination) : Option Text :=
  let port := afterLast ':' d.authority
  if ':' ∈ d.authority ∧ ']' ∉ port then some port else none

/-- The host, without the brackets around it. -/
def host (d : Destination) : Text :=
  let host :=
    match d.portText? with
    | some port => d.authority.take (d.authority.length - port.length - 1)
    | none => d.authority
  if host.head? = some '[' ∧ host.getLast? = some ']' then (host.drop 1).dropLast else host

/-- The number of the port, unless it is left out. -/
def port? (d : Destination) : Except DialFault (Option Int) :=
  match d.portText? with
  | none | some [] => .ok none
  | some text =>
    match readInteger text with
    | .ok n => .ok (some n)
    | .error _ => .error (.port text)

/-- A character that no part of a request may hold. -/
def isForbidden (c : Char) : Bool := c.toNat ≤ 0x20 || c.toNat == 0x7F

/-- Checks a part of a request for such characters. -/
def checkPart (part : Text) : Except DialFault Unit :=
  match part.find? isForbidden with
  | some c => .error (.controlCharacter part c)
  | none => .ok ()

/-- Checks where a request goes, before its message is written. -/
def check (d : Destination) : Except DialFault (Option Int) := do
  let port ← d.port?
  checkPart d.host
  checkPart d.path
  return port

/-- Why the head of the message cannot be written. -/
def headFault? (d : Destination) : Option Text :=
  charsetFault? "ascii".toList 0x80 ("GET ".toList ++ d.path ++ " HTTP/1.1".toList) <|>
    charsetFault? "latin-1".toList 0x100 d.authority <|> headerFault? d.authority

end Destination

end Headline.Link
