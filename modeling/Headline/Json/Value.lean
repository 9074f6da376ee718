import Headline.Number.Binary64

/-!
# JSON values

Numbers without fraction and exponent are integers of any size, all others are binary. An object
keeps its members as they were written; of members with one name the last counts.
-/

namespace Headline.Json

/-- A JSON value. -/
inductive Value where
  | null
  | bool (b : Bool)
  | int (n : Int)
  | float (x : Binary64)
  | string (s : Text)
  | array (elements : List Value)
  | object (members : List (Text × Value))
  deriving Repr

/-- The value of the last member with a given name. -/
def lookup (name : Text) (members : List (Text × Value)) : Option Value :=
  (members.reverse.find? fun m => m.1 = name).map Prod.snd

end Headline.Json
