import Headline.Report.StyledText
import Headline.Text.Blank
import Headline.Text.Columns
import Headline.Text.Octets

/-!
# Consoles

A run hands what it prints to a console, which makes lines of it that fit. What a console makes of a
text is its own affair, but it leaves plain texts as they are (`Console.Lawful`).
-/

namespace Headline.CommandLine

/-- What is handed to a console: the banner, a text, or a text with styles. -/
inductive Print where
  | banner
  | text (s : Text)
  | styled (t : Report.StyledText)
  deriving DecidableEq, Repr

/-- A console, as what it writes for the banner and for a text. It cannot write every text. -/
structure Console where
  banner : Text
  text : Text → Option Text
  styled : Report.StyledText → Option Text

/-- A text that no console has a reason to change, with so many columns: no control character and no
tab, a blank between any two colons, so that they do not enclose the name of a picture, and lines
that fit even if each character takes two columns. -/
def isPlain (columns : Nat) (s : Text) : Bool :=
  (s.all fun c => !Report.isControl c && c != '\t') &&
    (((Text.splitAt ':' s).drop 1).dropLast.all fun name => name.any isBlank) &&
    (Text.splitAt '\n' s).all fun row => 2 * row.length ≤ columns

namespace Console

/-- What a console with so many columns is known to do: it writes every text that has octets, and a
plain one as it is, with its line ended. -/
structure Lawful (k : Console) (columns : Nat) : Prop where
  writes : ∀ s, Text.isEncodable s → (k.text s).isSome
  keeps : ∀ s, Text.isEncodable s → isPlain columns s → k.text s = some (s ++ ['\n'])

/-- What a console writes for one thing. -/
def written (k : Console) : Print → Option Text
  | .banner => some k.banner
  | .text s => k.text s
  | .styled t => k.styled t

/-- What a console writes, up to the first thing that it cannot write; and whether there is none. -/
def write (k : Console) : List Print → Text × Bool
  | [] => ([], true)
  | p :: ps =>
    match k.written p with
    | none => ([], false)
    | some s => (s ++ (k.write ps).1, (k.write ps).2)

/-! ## A wide console -/

/-- The lines of the banner. -/
def bannerLines : List String :=
  ["       ",
   "███╗░░██╗ ███████╗ ░██╗░░░░░░░██╗ ░██████╗ ██╗░░░░░ ███████╗ ███╗░░██╗ ░██████╗",
   "████╗░██║ ██╔════╝ ░██║░░██╗░░██║ ██╔════╝ ██║░░░░░ ██╔════╝ ████╗░██║ ██╔════╝",
   "██╔██╗██║ █████╗░░ ░╚██╗████╗██╔╝ ╚█████╗░ ██║░░░░░ █████╗░░ ██╔██╗██║ ╚█████╗░",
   "██║╚████║ ██╔══╝░░ ░░████╔═████║░ ░╚═══██╗ ██║░░░░░ ██╔══╝░░ ██║╚████║ ░╚═══██╗",
   "██║░╚███║ ███████╗ ░░╚██╔╝░╚██╔╝░ ██████╔╝ ███████╗ ███████╗ ██║░╚███║ ██████╔╝",
   "╚═╝░░╚══╝ ╚══════╝ ░░░╚═╝░░░╚═╝░░ ╚═════╝░ ╚══════╝ ╚══════╝ ╚═╝░░╚══╝ ╚═════╝░"]

/-- What a console of any width shows of a text in which it finds no pictures: no control
characters, and tabs as spaces. A text without octets cannot be written. -/
def widened (s : Text) : Option Text :=
  if Text.isEncodable s then some (Text.expandTabs 0 (Report.dropControls s) ++ ['\n']) else none

/-- A console that is wide enough for every line. -/
def wide : Console where
  banner := bannerLines.flatMap fun row => row.toList ++ ['\n']
  text := widened
  styled := fun t => widened t.plain

end Console

end Headline.CommandLine
