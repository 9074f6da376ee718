import Headline.Text.Basic

/-!
# Line ends

A file may end its lines with a line feed, a carriage return, or both. Read as text, all of them
are a line feed.
-/

namespace Headline.Text

/-- Writes every line end as a line feed. -/
def unifyNewlines : Text → Text
  | [] => []
  | '\r' :: '\n' :: s => '\n' :: unifyNewlines s
  | '\r' :: s => '\n' :: unifyNewlines s
  | c :: s => c :: unifyNewlines s

end Headline.Text
