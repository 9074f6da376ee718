import Headline.Calendar.FeedDate
import Headline.Report.StyledText
import Headline.Search.Outcome

/-!
# Results as shown

An outcome is shown as a notice when the query was rejected, a summary line, and two lines for each
item. A rejected query is shown with a caret under the place to mend.
-/

namespace Headline.Report

open Search Query

/-- The date of an item as it is shown: the bare date, or the feed's text if that is no date. -/
def dateLabel (item : Item) : Text :=
  match Calendar.FeedDate.parse item.published with
  | .ok t => t.date.label
  | .error _ => item.published

/-- The line of an item. -/
def itemLine (item : Item) : Text := '[' :: dateLabel item ++ "] ".toList ++ item.title

/-- The notice above the matches of a rejected query. -/
def notice (fault : Diagnosis) : Text :=
  "Query rejected (".toList ++ fault.message ++ "); showing plain substring matches.\n".toList

/-- The line that counts the matches. -/
def summary (o : Outcome) : Text :=
  Text.ofInt o.total ++ " match(es), showing ".toList ++ Text.ofNat o.items.length ++ ['\n']

/-- The line with the link of an item. -/
def linkLine (item : Item) : Text := "    ".toList ++ item.link ++ ['\n']

/-- The pieces that show an item. -/
def itemPieces (item : Item) : List (Text × Option Style) :=
  [(itemLine item, none), (['\n'], none), (linkLine item, some .dim)]

/-- The pieces of the notice, which a rejected query alone has. -/
def noticePieces (o : Outcome) : List (Text × Option Style) :=
  match o.fallbackUsed, o.fault with
  | true, some fault => [(notice fault, some .yellow)]
  | _, _ => []

/-- The block of text that shows an outcome, given how text is added to it. -/
def results (append : StyledText.Append) (o : Outcome) : StyledText :=
  .ofPieces append (noticePieces o ++ (summary o, some .bold) :: o.items.flatMap itemPieces)

/-- The column of the caret: the position of the fault, kept inside the query. -/
def caretColumn (query : Text) (fault : Diagnosis) : Nat := min fault.position.toNat query.length

/-- A rejected query with a caret under the place to mend. -/
def rejection (query : Text) (fault : Diagnosis) : Text :=
  "Invalid query: ".toList ++ fault.message ++ "\n  ".toList ++ query ++ "\n  ".toList
    ++ List.replicate (caretColumn query fault) ' ' ++ ['^']

end Headline.Report
