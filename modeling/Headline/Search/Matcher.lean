import Headline.Query.Normalize
import Headline.Query.Parser
import Headline.Search.Config

/-!
# Matchers

A query as the user typed it becomes a test on titles: a blank query matches everything, a boolean
query its tree, and a rejected query either fails or matches the titles that contain it.
-/

namespace Headline.Search

open Query

/-- A test on titles in normal form. -/
inductive Matcher where
  | everything
  | tree (t : Tree)
  | substring (needle : Text) (fault : Fault)
  deriving Repr

namespace Matcher

/-- Whether a title in normal form passes. -/
def accepts : Matcher → Text → Bool
  | everything, _ => true
  | tree t, s => t.accepts s
  | substring needle _, s => needle.occursIn s

/-- Why the query was rejected, if it was. -/
def fault? : Matcher → Option Fault
  | substring _ fault => some fault
  | _ => none

/-- Whether the query was rejected and is searched for as it stands. -/
def isFallback (m : Matcher) : Bool := m.fault?.isSome

end Matcher

/-- The matcher of a query. -/
def Config.compile (c : Config) (query : Text) : Except Fault Matcher :=
  let normal := normalizeQuery query
  if normal.isEmpty then .ok .everything
  else
    match Query.compile normal with
    | .ok t => .ok (.tree t)
    | .error fault =>
      match c.fallback with
      | .strict => .error fault
      | .substring => .ok (.substring (normalize query) fault)

end Headline.Search
