import Headline.Search.Matcher
import Headline.Search.Sort

/-!
# Searching

A search keeps the items whose title matches, sorts them and cuts the result at the limit.
-/

namespace Headline.Search

open Query

/-- The result of a search. `fault` tells why the query was rejected. -/
structure Outcome where
  query : Text
  items : List Item
  total : Int
  fallbackUsed : Bool
  fault : Option Diagnosis
  deriving DecidableEq, Repr

/-- Why a search has no outcome. -/
inductive SearchFault where
  | rejected (fault : Fault)
  | outOfCalendar
  deriving DecidableEq, Repr

/-- The items whose title matches, in order. -/
def Matcher.select (m : Matcher) (items : List Item) : List Item :=
  items.filter fun item => m.accepts (normalize item.title)

/-- The items that are shown. -/
def Config.visible (c : Config) (items : List Item) : List Item :=
  match c.limit with
  | none => items
  | some n => items.take n

/-- The outcome of a query on a batch of items. -/
def Config.search (c : Config) (query : Text) (items : List Item) :
    Except SearchFault Outcome := do
  let matcher ← (c.compile query).mapError .rejected
  let found := matcher.select items
  let sorted ← (c.sort found).mapError fun _ => .outOfCalendar
  return {
    query
    items := c.visible sorted
    total := found.length
    fallbackUsed := matcher.isFallback
    fault := matcher.fault?.map Fault.diagnosis }

end Headline.Search
