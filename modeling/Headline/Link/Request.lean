import Headline.Link.Url
import Headline.Text.Blank

/-!
# Requests

The address of a request may stand in angle brackets and behind the letters `URL:`, and needs a
scheme and an authority without faults. An empty fragment is dropped.
-/

namespace Headline.Link

/-- Why an address cannot be asked for. -/
inductive RequestFault where
  | noScheme (address : Text)
  | malformed (fault : Fault)
  deriving DecidableEq, Repr

/-- The wording of the fault. -/
def RequestFault.message : RequestFault → Text
  | noScheme address => "unknown url type: ".toList ++ address.quoted
  | malformed f => f.message

/-- The address without blanks around it, angle brackets and a leading `URL:`. -/
def bareAddress (s : Text) : Text :=
  let s := Text.trim s
  let s :=
    if s.head? = some '<' ∧ s.getLast? = some '>' then Text.trim ((s.drop 1).dropLast) else s
  if s.take 4 = "URL:".toList then Text.trim (s.drop 4) else s

/-- The address up to its last `#`, and the fragment after it, if it has one. -/
def splitFragment (s : Text) : Text × Option Text :=
  if '#' ∈ s then
    let fragment := afterLast '#' s
    (s.take (s.length - fragment.length - 1), some fragment)
  else (s, none)

/-- Whether an address starts with a scheme: something without slash before a colon. -/
def hasScheme (s : Text) : Bool :=
  match Text.cutAt (fun c => c == ':' || c == '/') s with
  | (scheme, ':' :: _) => !scheme.isEmpty
  | _ => false

/-- What is asked for: an address without its fragment, and the fragment. -/
structure Request where
  address : Text
  fragment : Text
  deriving DecidableEq, Repr

namespace Request

/-- The whole address of a request. -/
def text (r : Request) : Text := r.address ++ marked '#' r.fragment

/-- The request for an address. -/
def ofText (s : Text) : Except RequestFault Request :=
  let (address, fragment) := splitFragment (bareAddress s)
  let r : Request := ⟨address, fragment.getD []⟩
  if hasScheme address then
    match Url.split [] r.text with
    | .error f => .error (.malformed f)
    | .ok _ => .ok r
  else .error (.noScheme r.text)

end Request

end Headline.Link
