import Headline.Text.Octets
import Headline.Text.Quoted

/-!
# Files

A directory tree, given by the names of its files relative to the root, and what it means to read
a path in it. Nothing outside the root can be read.
-/

namespace Headline

/-- Why a path cannot be read. -/
inductive FileFault where
  | missing (path : Text)
  | occupied (path : Text)
  | notDirectory (path : Text)
  | directory (path : Text)
  | zeroInPath
  deriving DecidableEq, Repr

/-- The wording of the fault. -/
def FileFault.message : FileFault → Text
  | missing p => "[Errno 2] No such file or directory: ".toList ++ p.quoted
  | occupied p => "[Errno 17] File exists: ".toList ++ p.quoted
  | notDirectory p => "[Errno 20] Not a directory: ".toList ++ p.quoted
  | directory p => "[Errno 21] Is a directory: ".toList ++ p.quoted
  | zeroInPath => "embedded null byte".toList

/-- The files below a root, each with its name relative to the root and its content. -/
structure Files where
  root : Text
  entries : List (Text × Octets)

namespace Files

/-- What a path leads to. -/
inductive Target where
  | file (content : Octets)
  | directory
  | missing
  | notDirectory

/-- The segments of a path that is absolute, or relative to the root, if it starts there. -/
def segments? (fs : Files) (path : Text) : Option (List Text) :=
  if path.isEmpty then none
  else if path = fs.root then some []
  else if (fs.root ++ ['/']).isPrefixOf path then
    some (Text.splitAt '/' (path.drop (fs.root.length + 1)))
  else if path.head? = some '/' then none
  else some (Text.splitAt '/' path)

/-- The content of a file. -/
def content? (fs : Files) (name : Text) : Option Octets :=
  (fs.entries.find? fun e => e.1 = name).map Prod.snd

/-- Whether a name is that of a directory: some file stands below it. -/
def isDirectory (fs : Files) (name : Text) : Bool :=
  fs.entries.any fun e => (name ++ ['/']).isPrefixOf e.1

/-- Follows segments from the directory `here`, whose segments are given in reverse. -/
def follow (fs : Files) (here : List Text) : List Text → Target
  | [] => .directory
  | segment :: segments =>
    if segment = [] ∨ segment = ['.'] then fs.follow here segments
    else if segment = ['.', '.'] then
      match here with
      | [] => .missing
      | _ :: above => fs.follow above segments
    else
      let name := Text.join ['/'] (segment :: here).reverse
      match fs.content? name with
      | some content => if segments = [] then .file content else .notDirectory
      | none =>
        if fs.isDirectory name then fs.follow (segment :: here) segments else .missing

/-- What a path leads to. -/
def target (fs : Files) (path : Text) : Target :=
  match fs.segments? path with
  | none => .missing
  | some segments => fs.follow [] segments

/-- Whether a path leads anywhere. -/
def contains (fs : Files) (path : Text) : Bool :=
  match fs.target path with
  | .file _ | .directory => true
  | .missing | .notDirectory => false

/-- The content of the file at a path. -/
def read (fs : Files) (path : Text) : Except FileFault Octets :=
  if '\x00' ∈ path then .error .zeroInPath
  else
    match fs.target path with
    | .file content => .ok content
    | .directory => .error (.directory path)
    | .missing => .error (.missing path)
    | .notDirectory => .error (.notDirectory path)

end Files

end Headline
