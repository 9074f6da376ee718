import Headline.Text.Basic

/-!
# News items

One entry of the news feed, as it is searched and shown. The two dates are kept as the feed wrote
them.
-/

namespace Headline

/-- An entry of the news feed. -/
structure Item where
  link : Text
  title : Text
  published : Text
  updated : Text
  deriving DecidableEq, Repr

end Headline
