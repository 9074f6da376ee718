import Headline.Feed.Item
import Headline.Json.Value
import Headline.Link.Resolve

/-!
# Entries of a feed

A feed is a list of entries, by itself or under the name `news` of an object. Every entry has four
texts, and its link is resolved against the site of the feed.
-/

namespace Headline.Feed

open Json (Value)

/-- Why a feed is refused. -/
inductive Fault where
  | shape
  | notObject (index : Int)
  | notText (index : Int) (field : Text)
  | link (fault : Link.Fault)
  deriving DecidableEq, Repr

/-- The place of an entry in the feed. -/
def place (index : Int) : Text := "news[".toList ++ Text.ofInt index ++ [']']

/-- The wording of the fault. -/
def Fault.message : Fault → Text
  | shape => "News payload must be a list or an object with a 'news' list".toList
  | notObject i => place i ++ " must be an object".toList
  | notText i field => place i ++ '.' :: field ++ " must be a string".toList
  | link f => f.message

/-- The site that links are relative to unless the settings name another one. -/
def defaultSite : Text := "https://kemono-friends-3.jp".toList

/-- A field of an entry, which has to be a text. -/
def textField (index : Int) (members : List (Text × Value)) (field : Text) : Except Fault Text :=
  match Json.lookup field members with
  | some (.string s) => .ok s
  | _ => .error (.notText index field)

/-- The four texts of an entry, its link not yet resolved. -/
def readFields (index : Int) : Value → Except Fault Item
  | .object members => do
    let link ← textField index members "targetUrl".toList
    let title ← textField index members "title".toList
    let published ← textField index members "newsDate".toList
    let updated ← textField index members "updated".toList
    return { link, title, published, updated }
  | _ => .error (.notObject index)

/-- The item of an entry. -/
def readEntry (site : Text) (index : Int) (entry : Value) : Except Fault Item := do
  let item ← readFields index entry
  let link ← (Link.resolve (Link.baseOf site) item.link).mapError .link
  return { item with link }

/-- The items of entries that start at a given index. -/
def readEntries (site : Text) : (index : Nat) → List Value → Except Fault (List Item)
  | _, [] => .ok []
  | index, entry :: entries => do
    let item ← readEntry site index entry
    let items ← readEntries site (index + 1) entries
    return item :: items

/-- The entries of a feed. -/
def entriesOf : Value → Except Fault (List Value)
  | .array entries => .ok entries
  | .object members =>
    match Json.lookup "news".toList members with
    | some (.array entries) => .ok entries
    | _ => .error .shape
  | _ => .error .shape

/-- The items of a feed. -/
def readPayload (site : Text) (payload : Value) : Except Fault (List Item) :=
  entriesOf payload >>= readEntries site 0

end Headline.Feed
