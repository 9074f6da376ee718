import Headline.Calendar.FeedDate
import Headline.Calendar.Timestamp
import Headline.Feed.Item
import Headline.Search.Config

/-!
# Sorting results

Items are sorted by the instant of one of their dates. The sort is stable in both orders, and
items without a usable date go last. A timestamp outside the calendar stops the sort.
-/

namespace Headline.Search

open Calendar

/-- A timestamp denotes an instant outside the years 1 to 9999. -/
structure OutOfCalendar where
  deriving DecidableEq, Repr

/-- The instant to sort an item by, if its date is usable. -/
def Config.key? (c : Config) (item : Item) : Except OutOfCalendar (Option Nat) :=
  match c.sortField with
  | .published =>
    match FeedDate.parse item.published with
    | .ok t => .ok (some t.instant)
    | .error _ => .ok none
  | .updated =>
    match Timestamp.parse item.updated with
    | .ok t => .ok (some t.instant)
    | .error (.malformed _) => .ok none
    | .error .outOfRange => .error {}

/-- Whether an item with the first key may stand before one with the second key. -/
def SortOrder.admits (order : SortOrder) (a b : Nat) : Bool :=
  match order with
  | .ascending => a ≤ b
  | .descending => b ≤ a

/-- Items with a key in the order of their keys, then the others. -/
def arrange (order : SortOrder) (keyed : List (Option Nat × Item)) : List Item :=
  let dated := keyed.filterMap fun p => p.1.map fun key => (key, p.2)
  let undated := keyed.filter fun p => p.1.isNone
  (dated.mergeSort fun a b => order.admits a.1 b.1).map Prod.snd ++ undated.map Prod.snd

/-- The items in the configured order. -/
def Config.sort (c : Config) (items : List Item) : Except OutOfCalendar (List Item) :=
  arrange c.sortOrder <$> items.mapM fun item => (·, item) <$> c.key? item

end Headline.Search
