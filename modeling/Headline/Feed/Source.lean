import Headline.Feed.Entry
import Headline.Feed.Network
import Headline.Files
import Headline.Json.Reader
import Headline.Log.Record
import Headline.Text.Newline
import Headline.Text.Utf8

/-!
# Sources of news

A feed comes from a file or from a server. Both are decoded strictly and read as the same JSON; a
file may end its lines in any way. Callers tell the faults of a source apart by their kind, and
report most of them.
-/

namespace Headline.Feed

open Json (Value)

/-- Where a feed comes from. Links are relative to `site`, which has to be a text as soon as there
is a link to resolve. -/
inductive Source where
  | file (path : Text) (site : Value)
  | server (address : Text) (timeout : Binary64) (site : Value)
  deriving Repr

/-- What a source can be read from: a way to read files, a way to ask servers, and the number of
levels that JSON may nest. -/
structure World where
  readFile : Text → Except FileFault Octets
  ask : Link.Request → Binary64 → Except NoAnswer Response
  levels : Nat

/-! ## Faults -/

/-- Why a feed cannot be loaded. -/
inductive LoadFault where
  | file (fault : FileFault)
  | encoding (fault : Utf8.Fault)
  | json (error : Json.Error)
  | feed (fault : Fault)
  | site
  | request (fault : Link.RequestFault)
  | unanswered (why : NoAnswer)
  | status (code : Int) (detail : Text)
  | noSource
  deriving DecidableEq, Repr

/-- The wording of the fault. -/
def LoadFault.message : LoadFault → Text
  | file f => f.message
  | encoding f => f.message
  | json e => e.message
  | feed f => f.message
  | site => "the site is no text".toList
  | request f => f.message
  | unanswered why => why.message
  | status code detail =>
    "News feed error ".toList ++ Text.ofInt code ++ ": ".toList ++ detail
  | noSource => "Configure source.path or source.url, or pass --source".toList

/-- The kinds of faults that callers tell apart: the system does not provide the source, the server
or the settings do not, a text is nested too deep, an address or a value is not admissible, octets
are no text, a text is no JSON, settings are of the wrong type, an address cannot be dialled, and a
number does not fit into a machine word. -/
inductive Failure where
  | system
  | refused
  | recursion
  | value
  | encoding
  | malformed
  | mistyped
  | undiallable
  | overflow
  deriving DecidableEq, Repr

/-- The kind of a reason for no answer. -/
def NoAnswer.failure : NoAnswer → Failure
  | unreachable _ => .system
  | broken _ => .system
  | invalid _ => .value
  | undialled (.port _) => .undiallable
  | undialled (.controlCharacter ..) => .undiallable
  | undialled .portTooLarge => .overflow
  | undialled .timeoutTooLarge => .overflow

/-- The kind of a fault. -/
def LoadFault.failure : LoadFault → Failure
  | file .zeroInPath => .value
  | file _ => .system
  | encoding _ => .encoding
  | json (.syntaxError ..) => .malformed
  | json (.longInteger _) => .value
  | json (.tooDeep _) => .recursion
  | feed _ => .value
  | site => .mistyped
  | request _ => .value
  | unanswered why => why.failure
  | status .. => .refused
  | noSource => .refused

/-- Whether callers report a fault of this kind. -/
def Failure.isReported : Failure → Bool
  | system | refused | recursion | value | encoding | malformed => true
  | mistyped | undiallable | overflow => false

/-! ## Reading -/

/-- The items of a payload whose links are relative to `site`. -/
def readItems (site payload : Value) : Except LoadFault (List Item) :=
  match site with
  | .string s => (readPayload s payload).mapError .feed
  | _ =>
    match entriesOf payload with
    | .error f => .error (.feed f)
    | .ok [] => .ok []
    | .ok (entry :: _) =>
      match readFields 0 entry with
      | .error f => .error (.feed f)
      | .ok _ => .error .site

/-- The items of a JSON text that nests at most so many levels. -/
def readText (site : Value) (levels : Nat) (s : Text) : Except LoadFault (List Item) := do
  let payload ← (Json.parseWithin levels s).mapError .json
  readItems site payload

/-- The items of a file with the given content. -/
def readFileBody (site : Value) (levels : Nat) (body : Octets) : Except LoadFault (List Item) := do
  let s ← (Utf8.decode body).mapError .encoding
  readText site levels (Text.unifyNewlines s)

/-- Whether a status tells of success. -/
def isSuccess (status : Int) : Bool := 200 ≤ status && status < 300

/-- The items of an answer. Without success it is a fault, whatever the body. -/
def readResponse (site : Value) (levels : Nat) (r : Response) : Except LoadFault (List Item) :=
  if isSuccess r.status then do
    let s ← (Utf8.decode r.body).mapError .encoding
    readText site levels s
  else .error (.status r.status (Utf8.decodeLossy r.body))

namespace Source

/-- The items of a source. A file is read one call deeper than an answer, which costs a level. -/
def load (w : World) : Source → Except LoadFault (List Item)
  | file path site => do
    let body ← (w.readFile path).mapError .file
    readFileBody site (w.levels - 1) body
  | server address timeout site => do
    let request ← (Link.Request.ofText address).mapError .request
    let response ← (w.ask request timeout).mapError .unanswered
    readResponse site w.levels response

/-- Reports a feed that has been loaded. -/
def record (s : Source) (items : List Item) : Log.Record where
  severity := .info
  origin := "adapters.news_sources".toList
  message :=
    match s with
    | file path _ =>
      "Loaded ".toList ++ Text.ofNat items.length ++ " news items from ".toList ++ path
    | server address _ _ =>
      "Fetched ".toList ++ Text.ofNat items.length ++ " news items from ".toList ++ address

end Source

end Headline.Feed
