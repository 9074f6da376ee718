import Headline.Log.Record
import Headline.Search.Outcome

/-!
# What a search reports

The log records of a search: a rejected query, each match without a usable date, and the number of
matches.
-/

namespace Headline.Search

open Query

/-- The name under which searches report. -/
def origin : Text := "core.news_search".toList

/-- Reports a query that is searched for as a plain substring. -/
def Config.compileRecords (c : Config) (query : Text) : List Log.Record :=
  match c.compile query with
  | .ok (.substring _ fault) =>
    [{ severity := .warning
       origin
       message := "Query ".toList ++ (normalizeQuery query).quoted
        ++ " rejected at position ".toList ++ Text.ofNat fault.position ++ " (".toList
        ++ fault.message ++ "); falling back to substring search".toList }]
  | _ => []

/-- Reports the items without a usable date, up to the first one that stops the sort. -/
def Config.sortRecords (c : Config) : List Item → List Log.Record
  | [] => []
  | item :: items =>
    match c.key? item with
    | .error _ => []
    | .ok (some _) => c.sortRecords items
    | .ok none =>
      { severity := .warning
        origin
        message := "Unparsable ".toList ++ c.sortField.name ++ " for ".toList ++ item.link
          ++ "; sorting it last".toList } :: c.sortRecords items

/-- Reports the size of an outcome. -/
def Outcome.record (o : Outcome) : Log.Record where
  severity := .info
  origin
  message := "Query ".toList ++ o.query.quoted ++ " matched ".toList ++ Text.ofInt o.total
    ++ " items (".toList ++ Text.ofNat o.items.length ++ " shown)".toList

/-- All that a search reports, in order. -/
def Config.records (c : Config) (query : Text) (items : List Item) : List Log.Record :=
  match c.compile query with
  | .error _ => []
  | .ok matcher =>
    c.compileRecords query ++ c.sortRecords (matcher.select items)
      ++ ((c.search query items).toOption.map Outcome.record).toList

end Headline.Search
