import Headline.CommandLine.Arguments
import Headline.CommandLine.Console
import Headline.Log.Delivery
import Headline.Report.Results
import Headline.Search.Records

/-!
# Running a command

Given the settings, the arguments and the world that news is loaded from, a run hands texts to the
console, reports records and ends. It ends early when something cannot be helped by the user of the
command line.
-/

namespace Headline.CommandLine

open Query

/-- Why a run ends early. -/
inductive Abort where
  | logging (fault : SettingsFault)
  | config (fault : Search.ConfigFault)
  | source
  | news (fault : Feed.LoadFault)
  | calendar
  | printing
  deriving DecidableEq, Repr

/-- How a run ends. -/
inductive Exit where
  | code (n : Nat)
  | aborted (why : Abort)
  deriving DecidableEq, Repr

/-- What a run does. -/
structure Run where
  exit : Exit
  prints : List Print
  records : List Log.Record
  deriving DecidableEq, Repr

/-! ## Checking a query -/

/-- The line that shows a token. -/
def tokenLine (t : Token) : Text :=
  Text.padLeft 4 (Text.ofNat t.position) ++ "  ".toList ++ Text.padRight 12 t.kind.name
    ++ ' ' :: t.spelling

/-- Shows how a query is understood, or where it is broken. -/
def runCheck (query : Text) : Run :=
  let normal := normalizeQuery query
  let parsed := do
    let ts ← tokensOf normal defaultDepth
    let t ← parseTokens ts defaultDepth
    return (ts, t)
  match parsed with
  | .error fault => ⟨.code 1, [.text (Report.rejection normal fault.diagnosis)], []⟩
  | .ok (ts, t) =>
    ⟨.code 0, (ts.map fun t => .text (tokenLine t)) ++ [.text t.description], []⟩

/-! ## Searching -/

/-- How to search: as the switches say, and as the settings say where they say nothing. -/
def configOf (s : Settings) (o : SearchSwitches) : Except Abort Search.Config :=
  let field := (o.sortField.map Search.SortField.name).getD s.sortField.shown
  let order := (o.sortOrder.map Search.SortOrder.name).getD s.sortOrder.shown
  let fallback := if o.strict then Search.Fallback.strict.name else s.fallback.shown
  let limit := if o.all then none else (o.limit.map fun n => (n : Int)) <|> s.limit
  (Search.Config.ofParts field order limit fallback).mapError .config

/-- Loads the news. Some faults are not for the user, and end the run. -/
def loadNews (s : Settings) (o : SearchSwitches) (w : Feed.World) :
    Except Abort (Except Feed.LoadFault (List Item × Log.Record)) :=
  match s.source o.source with
  | .error .notText => .error .source
  | .error .none => .ok (.error .noSource)
  | .ok source =>
    match source.load w with
    | .error f => if f.failure.isReported then .ok (.error f) else .error (.news f)
    | .ok items => .ok (.ok (items, source.record items))

/-- Searches news that has been loaded. -/
def searchIn (config : Search.Config) (query : Text) (items : List Item) : Run :=
  let records := config.records query items
  match config.search query items with
  | .ok outcome => ⟨.code 0, [.styled (Report.results .append outcome)], records⟩
  | .error (.rejected fault) =>
    ⟨.code 1, [.text (Report.rejection (normalizeQuery query) fault.diagnosis)], records⟩
  | .error .outOfCalendar => ⟨.aborted .calendar, [], records⟩

/-- What a search reports when there is no news. -/
def loadRecord (f : Feed.LoadFault) : Log.Record :=
  ⟨.error, "app".toList, "Failed to load news: ".toList ++ f.message⟩

/-- Searches, without the banner. -/
def searchQuietly (s : Settings) (query : Text) (o : SearchSwitches) (w : Feed.World) : Run :=
  match configOf s o with
  | .error why => ⟨.aborted why, [], []⟩
  | .ok config =>
    match loadNews s o w with
    | .error why => ⟨.aborted why, [], []⟩
    | .ok (.error f) =>
      ⟨.code 1, [.text ("Could not load news: ".toList ++ f.message)], [loadRecord f]⟩
    | .ok (.ok (items, loaded)) =>
      let run := searchIn config query items
      { run with records := loaded :: run.records }

/-- Searches, with the banner unless it is unwanted. -/
def runSearch (s : Settings) (query : Text) (o : SearchSwitches) (w : Feed.World) : Run :=
  let run := searchQuietly s query o w
  { run with prints := (if o.noBanner then [] else [.banner]) ++ run.prints }

/-- Does what is asked for. -/
def Invocation.run (s : Settings) (w : Feed.World) : Invocation → Run
  | .search query o => runSearch s query o w
  | .check query => runCheck query

/-! ## The whole program -/

/-- What can be seen of a run from outside. `logs` holds the log files by their name below the
root, with the text that they have at the end. -/
structure Effect where
  exit : Exit
  stdout : Text
  stderr : Text
  logs : List (Text × Text)
  deriving DecidableEq, Repr

/-- The log files that were not there before the run. -/
def Effect.created (e : Effect) (fs : Files) : List (Text × Text) :=
  e.logs.filter fun log => (fs.content? log.1).isNone

/-- The wording of the reason why a run ends early. -/
def Abort.message : Abort → Text
  | logging f => f.message
  | config f => f.message
  | source => "the source is no text".toList
  | news f => f.message
  | calendar => Calendar.Timestamp.Fault.outOfRange.message
  | printing => "surrogates not allowed".toList

/-- The last line of a text, line breaks at its end aside. -/
def lastLine (s : Text) : Text :=
  ((s.reverse.dropWhile (· == '\n')).takeWhile (· != '\n')).reverse

/-- The complaint of a command about its arguments. -/
def complaint (command : Text) (fault : UsageFault) : Text :=
  lastLine (command ++ ": error: ".toList ++ fault.message)

/-- How a run ends whose prints a console writes, or cannot write. -/
def Run.exitOn (k : Console) (run : Run) : Exit :=
  if (k.write run.prints).2 then run.exit else .aborted .printing

/-- Runs the program: reads the arguments, sets up logging, does what is asked for, prints on the
console and delivers the records. -/
def execute (s : Settings) (fs : Files) (w : Feed.World) (k : Console) (clock : Log.Clock)
    (arguments : List Text) : Effect :=
  match Invocation.ofArguments arguments with
  | .error .help => ⟨.code 0, [], [], []⟩
  | .error (.usage command fault) => ⟨.code 2, [], complaint command fault, []⟩
  | .ok invocation =>
    match Log.Setup.ofSettings fs s with
    | .error f => ⟨.aborted (.logging f), [], [], []⟩
    | .ok setup =>
      let run := invocation.run s w
      { exit := run.exitOn k
        stdout := (k.write run.prints).1
        stderr := setup.console clock run.records
        logs := setup.logFiles fs clock run.records }

end Headline.CommandLine
