import Headline.Link.Address
import Headline.Text.Quoted

/-!
# Links

A link has a scheme, an authority, a path with parameters after its last segment, a query and a
fragment, each of which may be empty. `Url.split` takes a text apart and `Url.text` puts the parts
together again.
-/

namespace Headline.Link

/-- Why a text cannot be taken apart. -/
inductive Fault where
  | unbalancedBrackets
  | laterVersion
  | version4InBrackets
  | noAddress (host : Text)
  | confusable (authority : Text)
  deriving DecidableEq, Repr

/-- The wording of the fault. -/
def Fault.message : Fault → Text
  | unbalancedBrackets => "Invalid IPv6 URL".toList
  | laterVersion => "IPvFuture address is invalid".toList
  | version4InBrackets => "An IPv4 address cannot be in brackets".toList
  | noAddress host => host.quoted ++ " does not appear to be an IPv4 or IPv6 address".toList
  | confusable authority =>
    "netloc '".toList ++ authority
      ++ "' contains invalid characters under NFKC normalization".toList

/-- The parts of a link. -/
structure Url where
  scheme : Text
  authority : Text
  path : Text
  params : Text
  query : Text
  fragment : Text
  deriving DecidableEq, Repr

/-! ## Schemes -/

/-- Schemes whose links may have parameters. -/
def schemesWithParams : List Text :=
  ["", "ftp", "hdl", "prospero", "http", "imap", "https", "shttp", "rtsp", "rtsps", "rtspu", "sip",
   "sips", "mms", "sftp", "tel"].map String.toList

/-- Schemes whose links may be relative. -/
def relativeSchemes : List Text :=
  ["", "ftp", "http", "gopher", "nntp", "imap", "wais", "file", "https", "shttp", "mms",
   "prospero", "rtsp", "rtsps", "rtspu", "sftp", "svn", "svn+ssh", "ws", "wss"].map String.toList

/-- Schemes whose links have an authority. -/
def schemesWithAuthority : List Text :=
  ["", "ftp", "http", "gopher", "nntp", "telnet", "imap", "wais", "file", "mms", "https", "shttp",
   "snews", "prospero", "rtsp", "rtsps", "rtspu", "rsync", "svn", "svn+ssh", "sftp", "nfs",
   "git", "git+ssh", "ws", "wss"].map String.toList

/-- A character of a scheme. -/
def isSchemeChar (c : Char) : Bool := c.isAlphanum || c == '+' || c == '-' || c == '.'

/-- The scheme of a link, if it has one, and what follows its colon. -/
def splitScheme (s : Text) : Option (Text × Text) :=
  match Text.cutAt (· == ':') s with
  | (scheme, _ :: rest) =>
    if scheme.head?.any Char.isAlpha ∧ scheme.all isSchemeChar then
      some (Text.lowerAscii scheme, rest)
    else none
  | _ => none

/-! ## Authorities -/

/-- What follows the last `c`, or everything if there is none. -/
def afterLast (c : Char) (s : Text) : Text := (s.reverse.takeWhile (· != c)).reverse

/-- Checks what stands between the brackets of an authority. -/
def checkBracketed (host : Text) : Except Fault Unit :=
  if host.head? = some 'v' then
    if isLaterVersion host then .ok () else .error .laterVersion
  else if isVersion4 host then .error .version4InBrackets
  else if isVersion6 host then .ok ()
  else .error (.noAddress host)

/-- Checks the brackets of an authority: both or none, around the whole host. -/
def checkBrackets (authority : Text) : Except Fault Unit :=
  match authority.contains '[', authority.contains ']' with
  | false, false => .ok ()
  | true, true =>
    let hostAndPort := afterLast '@' authority
    match Text.cutAt (· == '[') hostAndPort with
    | (before, _ :: bracketed) =>
      let (host, after) := Text.cutAt (· == ']') bracketed
      if !before.isEmpty || (after.drop 1).head?.any (· != ':') then
        .error .unbalancedBrackets
      else checkBracketed host
    | (hostAndPort, []) => checkBracketed (Text.cutAt (· == ':') hostAndPort).1
  | _, _ => .error .unbalancedBrackets

/-- Characters whose compatibility form holds a delimiter of links. -/
def isConfusable (c : Char) : Bool :=
  [0x2047, 0x2048, 0x2049, 0x2100, 0x2101, 0x2105, 0x2106, 0x2A74, 0xFE13, 0xFE16, 0xFE55, 0xFE56,
   0xFE5F, 0xFE6B, 0xFF03, 0xFF0F, 0xFF1A, 0xFF1F, 0xFF20].contains c.toNat

/-- Checks that an authority cannot be mistaken for another one. -/
def checkConfusable (authority : Text) : Except Fault Unit :=
  if authority.any isConfusable then .error (.confusable authority) else .ok ()

/-! ## Splitting -/

/-- Splits the parameters off the last segment of a path. -/
def splitParams (path : Text) : Text × Text :=
  let segment := afterLast '/' path
  let (bare, params) := Text.cutAt (· == ';') segment
  (path.take (path.length - segment.length) ++ bare, params.drop 1)

/-- The text without control characters and spaces in front and without line breaks and tabs. -/
def cleaned (s : Text) : Text :=
  (s.dropWhile fun c => c.toNat ≤ 0x20).filter fun c => c != '\t' && c != '\r' && c != '\n'

/-- The authority of a link after its scheme, if it has one, and what follows. -/
def splitAuthority : Text → Text × Text
  | '/' :: '/' :: s => Text.cutAt (fun c => c == '/' || c == '?' || c == '#') s
  | s => ([], s)

/-- Takes a text apart. A link without a scheme has the scheme `otherwise`. -/
def Url.split (otherwise s : Text) : Except Fault Url := do
  let (scheme, rest) := (splitScheme (cleaned s)).getD (otherwise, cleaned s)
  let (authority, rest) := splitAuthority rest
  checkBrackets authority
  let (rest, fragment) := Text.cutAt (· == '#') rest
  let (path, query) := Text.cutAt (· == '?') rest
  checkConfusable authority
  let (path, params) :=
    if schemesWithParams.contains scheme then splitParams path else (path, [])
  return { scheme, authority, path, params, query := query.drop 1, fragment := fragment.drop 1 }

/-! ## Joining the parts -/

/-- The text after a mark, and nothing at all if there is no text. -/
def marked (mark : Char) (s : Text) : Text := if s.isEmpty then [] else mark :: s

/-- The path with its authority in front. An empty authority is shown too if the scheme has
authorities, or if the path would otherwise be read as one. -/
def Url.location (u : Url) : Text :=
  let path := u.path ++ marked ';' u.params
  if !u.authority.isEmpty || (!u.scheme.isEmpty && schemesWithAuthority.contains u.scheme)
      || path.take 2 == ['/', '/'] then
    "//".toList ++ u.authority
      ++ (if path.isEmpty || path.head? == some '/' then path else '/' :: path)
  else path

/-- The text of a link. -/
def Url.text (u : Url) : Text :=
  (if u.scheme.isEmpty then [] else u.scheme ++ [':']) ++ u.location ++ marked '?' u.query
    ++ marked '#' u.fragment

end Headline.Link
