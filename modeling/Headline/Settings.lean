import Headline.Feed.Source
import Headline.Json.Conversion

/-!
# Settings

One JSON object holds all settings: where the news comes from, how searches work unless the
command line says otherwise, and what is logged. Every part may be left out.
-/

namespace Headline

open Json (Value)

/-- Why settings are refused. -/
inductive SettingsFault where
  | absent (path : Text)
  | file (fault : FileFault)
  | encoding (fault : Utf8.Fault)
  | json (error : Json.Error)
  | notObject
  | conversion (fault : Json.ConversionFault)
  deriving DecidableEq, Repr

/-- The wording of the fault. -/
def SettingsFault.message : SettingsFault → Text
  | absent path => "Config file not found: ".toList ++ path
  | file f => f.message
  | encoding f => f.message
  | json e => e.message
  | notObject => "an object is needed".toList
  | conversion f => f.message

/-- All settings. Some values are looked at only when they are used, and stay as they were
written until then. -/
structure Settings where
  path : Value
  url : Value
  timeout : Binary64
  site : Value
  sortField : Value
  sortOrder : Value
  limit : Option Int
  fallback : Value
  logging : Value
  deriving Repr

namespace Settings

/-- The members of an object. -/
def membersOf : Value → Except SettingsFault (List (Text × Value))
  | .object ms => .ok ms
  | _ => .error .notObject

/-- A member, or a default if it is left out. -/
def member (ms : List (Text × Value)) (name : String) (otherwise : Value) : Value :=
  (Json.lookup name.toList ms).getD otherwise

/-- A text as a value. -/
def ofString (s : String) : Value := .string s.toList

/-- The path of the news file below the root, unless it is absolute or left empty. -/
def rootedPath (root : Text) (path : Value) : Except SettingsFault Value :=
  match path with
  | .string s =>
    .ok (if s.isEmpty ∨ s.head? = some '/' then .string s else .string (root ++ '/' :: s))
  | v => if v.truthy then .error (.conversion .wrongType) else .ok v

/-- The number of items shown, if it is limited. -/
def limitOf : Value → Except SettingsFault (Option Int)
  | .null => .ok none
  | v => some <$> v.toInteger.mapError .conversion

/-- The settings that a value describes. -/
def ofValue (root : Text) (v : Value) : Except SettingsFault Settings := do
  let all ← membersOf v
  let source ← membersOf (member all "source" (.object []))
  let path ← rootedPath root (member source "path" .null)
  let timeout ← (member source "timeout" (.int 10)).toBinary64.mapError .conversion
  let search ← membersOf (member all "search" (.object []))
  let limit ← limitOf (member search "display_limit" (.int 10))
  return {
    path
    url := member source "url" .null
    timeout
    site := member source "base_url" (.string Feed.defaultSite)
    sortField := member search "sort_field" (ofString "news_date")
    sortOrder := member search "sort_order" (ofString "desc")
    limit
    fallback := member search "fallback" (ofString "substring")
    logging := member all "logging" (.object []) }

/-- The settings in a file with the given content. -/
def ofOctets (root : Text) (content : Octets) : Except SettingsFault Settings := do
  let s ← (Utf8.decode content).mapError .encoding
  let v ← (Json.parse (Text.unifyNewlines s)).mapError .json
  ofValue root v

/-- The settings in the file at a path. -/
def ofFile (fs : Files) (path : Text) : Except SettingsFault Settings :=
  if fs.contains path then do
    let content ← (fs.read path).mapError .file
    ofOctets fs.root content
  else .error (.absent path)

/-- The settings that come with the program, in their written form. -/
def shipped : Value :=
  let obj := fun ms : List (String × Value) => Value.object (ms.map fun m => (m.1.toList, m.2))
  obj
    [("source", obj
        [("path", .null),
          ("url", ofString "https://kemono-friends-3.jp/info/all/entries.txt"),
          ("timeout", .int 10),
          ("base_url", .string Feed.defaultSite)]),
      ("search", obj
        [("sort_field", ofString "news_date"),
          ("sort_order", ofString "desc"),
          ("display_limit", .int 10),
          ("fallback", ofString "substring")]),
      ("logging", obj
        [("enabled", .bool true),
          ("level", ofString "WARNING"),
          ("console", .bool true),
          ("file", obj
            [("enabled", .bool false),
              ("path", ofString "logs/newslens.log"),
              ("max_bytes", .int 5242880),
              ("backup_count", .int 5)])])]

/-! ## The source of news -/

/-- Why no source can be chosen. -/
inductive SourceFault where
  | none
  | notText
  deriving DecidableEq, Repr

/-- Whether a location is the address of a server. -/
def isAddress (location : Text) : Bool :=
  "http://".toList.isPrefixOf location || "https://".toList.isPrefixOf location

/-- The source at a location. -/
def sourceAt (s : Settings) (location : Text) : Feed.Source :=
  if isAddress location then .server location s.timeout s.site else .file location s.site

/-- The source of news: the given location, else the file of the settings, else their address.
Empty ones do not count. -/
def source (s : Settings) (given : Option Text) : Except SourceFault Feed.Source :=
  match given with
  | some (c :: cs) => .ok (s.sourceAt (c :: cs))
  | _ =>
    match [s.path, s.url].find? Value.truthy with
    | none => .error .none
    | some (.string location) => .ok (s.sourceAt location)
    | some _ => .error .notText

end Settings

end Headline
