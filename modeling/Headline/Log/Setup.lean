import Headline.Settings

/-!
# Logging set-up

The settings say from which severity on records are kept, and whether they go to the console, to a
file, or both. A file that grows too large is put aside under a numbered name.
-/

namespace Headline.Log

open Json (Value)

/-- Where records go. -/
inductive Handler where
  | console
  | file (path : Text) (maxSize backups : Int)
  deriving DecidableEq, Repr

/-- The lowest rank that is kept, and where records go. -/
structure Setup where
  threshold : Nat
  handlers : List Handler
  deriving DecidableEq, Repr

/-- The rank that is kept when nothing is set up. -/
def silent : Setup := ⟨Severity.warning.rank, []⟩

/-- The ranks that settings can name. -/
def ranks : List (Text × Nat) :=
  [("NOTSET", 0), ("DEBUG", 10), ("INFO", 20), ("WARNING", 30), ("WARN", 30), ("ERROR", 40),
   ("CRITICAL", 50), ("FATAL", 50)].map fun r => (r.1.toList, r.2)

/-- The capital form of a letter, as far as the names of ranks go: besides the small letters, the
dotless i and the long s have an ASCII capital. -/
def capital (c : Char) : Char :=
  if c.toNat = 0x131 then 'I' else if c.toNat = 0x17F then 'S' else c.toUpper

/-- The rank that a value names. Anything that names none stands for information. -/
def rankOf (v : Value) : Nat :=
  let name := v.shown.map capital
  ((ranks.find? fun r => r.1 = name).map Prod.snd).getD Severity.info.rank

/-! ## Paths -/

/-- The segments of a path without those that only move between directories. -/
def plainSegments (done : List Text) : List Text → List Text
  | [] => done.reverse
  | segment :: segments =>
    if segment = [] ∨ segment = ['.'] then plainSegments done segments
    else if segment = ['.', '.'] then plainSegments done.tail segments
    else plainSegments (segment :: done) segments

/-- An absolute path in its shortest form. -/
def plainPath (root path : Text) : Text :=
  if (root ++ ['/']).isPrefixOf path then
    Text.join ['/'] (root :: plainSegments [] (Text.splitAt '/' (path.drop (root.length + 1))))
  else '/' :: Text.join ['/'] (plainSegments [] (Text.splitAt '/' path))

/-- The directories above a file, outermost first. -/
def directoriesAbove (segments : List Text) : List Text :=
  (List.range segments.length).filterMap fun n =>
    if n = 0 then none else some (Text.join ['/'] (segments.take n))

/-- The names below the root of a path that leads there. -/
def segmentsBelow? (fs : Files) (path : Text) : Option (List Text) :=
  if (fs.root ++ ['/']).isPrefixOf path then
    some (Text.splitAt '/' (path.drop (fs.root.length + 1)))
  else none

/-- Why the directory of a log file cannot be made: a file stands in its place or above it. -/
def directoryObstacle? (fs : Files) (path : Text) : Option FileFault := do
  let directories := directoriesAbove (← segmentsBelow? fs path)
  match directories.dropWhile fun d => (fs.content? d).isNone with
  | [] => none
  | [d] => some (.occupied (fs.root ++ '/' :: d))
  | _ :: d :: _ => some (.notDirectory (fs.root ++ '/' :: d))

/-- Why a log file cannot be opened: a directory stands in its place. -/
def fileObstacle? (fs : Files) (path : Text) : Option FileFault :=
  let isDirectory := match segmentsBelow? fs path with
    | some segments => fs.isDirectory (Text.join ['/'] segments)
    | none => path == fs.root
  if isDirectory then some (.directory path) else none

/-! ## The set-up -/

/-- The handler that writes to a file. -/
def fileHandler (fs : Files) (ms : List (Text × Value)) : Except SettingsFault Handler := do
  let path ← match Settings.member ms "path" (Settings.ofString "logs/newslens.log") with
    | .string s => pure s
    | _ => .error (.conversion .wrongType)
  let path := if path.head? = some '/' then path else fs.root ++ '/' :: path
  let path := plainPath fs.root path
  if let some fault := directoryObstacle? fs path then throw (.file fault)
  let maxSize ← (Settings.member ms "max_bytes" (.int 5242880)).toInteger.mapError .conversion
  let backups ← (Settings.member ms "backup_count" (.int 5)).toInteger.mapError .conversion
  if let some fault := fileObstacle? fs path then throw (.file fault)
  return .file path maxSize backups

/-- The set-up that settings describe. Without a handler nothing is set up. -/
def Setup.ofSettings (fs : Files) (s : Settings) : Except SettingsFault Setup := do
  if !s.logging.truthy then return silent
  let all ← Settings.membersOf s.logging
  if !(Settings.member all "enabled" (.bool false)).truthy then return silent
  let threshold := rankOf (Settings.member all "level" (Settings.ofString "INFO"))
  let console :=
    if (Settings.member all "console" (.bool true)).truthy then [Handler.console] else []
  let file ← Settings.membersOf (Settings.member all "file" (.object []))
  let files ←
    if (Settings.member file "enabled" (.bool false)).truthy then
      (fun h => [h]) <$> fileHandler fs file
    else pure []
  let handlers := console ++ files
  return if handlers.isEmpty then silent else ⟨threshold, handlers⟩

end Headline.Log
