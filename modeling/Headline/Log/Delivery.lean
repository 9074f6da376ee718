import Headline.Log.Setup
import Headline.Text.Utf8

/-!
# Delivering records

Kept records go to the console and to the log file, each on a line of its own with its time in
front. When nothing is set up, warnings and errors appear on the console without their time.
-/

namespace Headline.Log

/-- A log file: its size in octets and its text. -/
structure LogFile where
  size : Nat
  text : Text
  deriving DecidableEq, Repr

/-- A log file and those put aside, by number; the file itself has the number zero. -/
abbrev Family := List (Nat × LogFile)

/-- How records are written: the text that stands for the time, and the number of characters that
a time has. -/
structure Clock where
  stamp : Text
  width : Nat

/-- The line of a record. -/
def Clock.line (c : Clock) (r : Record) : Text := c.stamp ++ ' ' :: r.line ++ ['\n']

/-- The number of characters of the line with its time written out. -/
def Clock.length (c : Clock) (r : Record) : Nat := c.width + 1 + r.line.length + 1

/-- The number of octets of the line with its time written out. -/
def Clock.size (c : Clock) (r : Record) : Nat := c.width + 1 + r.line.toOctets.length + 1

namespace Family

/-- The log file itself. -/
def current (f : Family) : LogFile :=
  ((f.find? fun e => e.1 = 0).map Prod.snd).getD ⟨0, []⟩

/-- Puts the log file aside as number one, each file put aside before moving up by one. The
highest number is given up when another file needs it. -/
def rotate (backups : Nat) (f : Family) : Family :=
  (0, ⟨0, []⟩) :: f.filterMap fun e =>
    if backups < e.1 then some e
    else if e.1 = backups then
      if f.any fun other => other.1 + 1 = backups then none else some e
    else some (e.1 + 1, e.2)

/-- Adds a line at the end of the log file. -/
def append (c : Clock) (r : Record) (f : Family) : Family :=
  let old := f.current
  (0, ⟨old.size + c.size r, old.text ++ c.line r⟩) :: f.filter fun e => e.1 != 0

/-- Writes a record. The file is put aside first if the line would fill it up; its size counts in
octets and the line in characters. -/
def write (c : Clock) (maxSize backups : Int) (f : Family) (r : Record) : Family :=
  let full := 0 < maxSize ∧ maxSize ≤ f.current.size + c.length r
  let f := if full ∧ 0 < backups then f.rotate backups.toNat else f
  f.append c r

end Family

/-- The records that are kept. -/
def Setup.kept (s : Setup) (records : List Record) : List Record :=
  records.filter fun r => s.threshold ≤ r.severity.rank

/-- What appears on the console. -/
def Setup.console (s : Setup) (c : Clock) (records : List Record) : Text :=
  if s.handlers.isEmpty then
    (s.kept records).flatMap fun r => r.message ++ ['\n']
  else if s.handlers.contains .console then (s.kept records).flatMap c.line
  else []

/-- The name of a log file or of one put aside. -/
def numberedName (name : Text) (number : Nat) : Text :=
  if number = 0 then name else name ++ '.' :: Text.ofNat number

/-- The files that are there before anything is logged. -/
def familyIn (fs : Files) (name : Text) : Family :=
  let numbers := 0 :: fs.entries.filterMap fun e =>
    if (name ++ ['.']).isPrefixOf e.1 then
      let suffix := e.1.drop (name.length + 1)
      let n := numberOfDigits (suffix.filterMap asciiDigit?)
      if 0 < n ∧ suffix = Text.ofNat n then some n else none
    else none
  let found := numbers.filterMap fun n =>
    (fs.content? (numberedName name n)).map fun b => (n, ⟨b.length, Utf8.decodeLossy b⟩)
  if (fs.content? name).isSome then found else (0, ⟨0, []⟩) :: found

/-- The log files below the root after the records have been written, by their name. -/
def Setup.logFiles (s : Setup) (fs : Files) (c : Clock) (records : List Record) :
    List (Text × Text) :=
  s.handlers.flatMap fun
    | .console => []
    | .file path maxSize backups =>
      if (fs.root ++ ['/']).isPrefixOf path then
        let name := path.drop (fs.root.length + 1)
        let family :=
          (s.kept records).foldl (Family.write c maxSize backups) (familyIn fs name)
        family.map fun e => (numberedName name e.1, e.2.text)
      else []

end Headline.Log
