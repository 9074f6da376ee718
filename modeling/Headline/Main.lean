import Headline.CommandLine.Run

/-!
# The program

Reads the settings, the arguments and the news file, runs the command and writes what it prints and
logs. There is no network, so a server counts as unreachable.
-/

namespace Headline

/-- The content of a file, or the reason why it cannot be read. -/
def readContent (path : Text) : IO (Except FileFault Octets) := do
  try
    let bytes ← IO.FS.readBinFile (String.ofList path)
    return .ok bytes.toList
  catch _ => return .error (.missing path)

/-- The contents of those of the given files that can be read. -/
def readAll (root : Text) (names : List Text) : IO (List (Text × Octets)) := do
  let contents ← names.mapM fun name => return (name, ← readContent (root ++ '/' :: name))
  return contents.filterMap fun c => c.2.toOption.map fun bytes => (c.1, bytes)

/-- The start of the system's time, in microseconds since the start of year 1. -/
def systemStart : Int := 62135596800000000

/-- The time of the system, read off a file that has just been written. -/
def currentTime : IO Text := do
  let (_, path) ← IO.FS.createTempFile
  let modified := (← path.metadata).modified
  IO.FS.removeFile path
  let now := Calendar.DateTime.ofInstant? (systemStart + modified.sec * 1000000)
  return ((now.map fun t => (t.text ' ').take 19).getD [])

/-- The names under which a run may keep its log. -/
def logNames (root : Text) (s : Settings) : List Text :=
  match Log.Setup.ofSettings ⟨root, []⟩ s with
  | .error _ => []
  | .ok setup =>
    setup.handlers.flatMap fun
      | .console => []
      | .file path _ backups =>
        (List.range (min (backups.toNat + 1) 100)).map fun n =>
          Log.numberedName (path.drop (root.length + 1)) n

/-- How deep the JSON of a feed may nest. -/
def usualLevels : Nat := 993

/-- The world that news is loaded from: the one file that the arguments call for. -/
def worldFor (s : Settings) (arguments : List Text) : IO Feed.World := do
  let net : Feed.Network := fun _ => .unknown "no network".toList
  let without := fun path => .error (.missing path)
  match CommandLine.Invocation.ofArguments arguments with
  | .ok (.search _ o) =>
    match s.source o.source with
    | .ok (.file path _) =>
      let content ← readContent path
      return ⟨fun _ => content, net.ask, usualLevels⟩
    | _ => return ⟨without, net.ask, usualLevels⟩
  | _ => return ⟨without, net.ask, usualLevels⟩

/-- Writes a log file, with the directories above it. -/
def writeLog (root : Text) (log : Text × Text) : IO Unit := do
  let path := String.ofList (root ++ '/' :: log.1)
  let above := (log.1.reverse.dropWhile (· != '/')).reverse
  IO.FS.createDirAll (String.ofList (root ++ '/' :: above))
  IO.FS.writeFile path (String.ofList log.2)

/-- Runs the program with settings. -/
def runWith (root : Text) (s : Settings) (arguments : List Text) : IO UInt32 := do
  let files : Files := ⟨root, ← readAll root (logNames root s)⟩
  let clock : Log.Clock := ⟨← currentTime, 19⟩
  let world ← worldFor s arguments
  let effect := CommandLine.execute s files world .wide clock arguments
  IO.print (String.ofList effect.stdout)
  IO.eprint (String.ofList effect.stderr)
  for log in effect.logs do
    writeLog root log
  match effect.exit with
  | .code n => return n.toUInt32
  | .aborted why =>
    IO.eprintln (String.ofList why.message)
    return 1

end Headline

/-- The program. The settings are in `config.json`, or where the environment says. -/
def main (arguments : List String) : IO UInt32 := do
  let root := (← IO.currentDir).toString
  let path := (← IO.getEnv "NEWSLENS_CONFIG").getD (root ++ "/config.json")
  let settings ← match ← Headline.readContent path.toList with
    | .error _ => pure (.error (Headline.SettingsFault.absent path.toList))
    | .ok content => pure (Headline.Settings.ofOctets root.toList content)
  match settings with
  | .error f =>
    IO.eprintln (String.ofList f.message)
    return 1
  | .ok s => Headline.runWith root.toList s (arguments.map String.toList)
