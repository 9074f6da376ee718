import Headline.Link.Url

/-!
# Resolving links

A relative link is resolved against a base: it takes over what it lacks, and its path continues
the directory of the base, with `.` and `..` worked out.
-/

namespace Headline.Link

/-- Drops the empty segments that stand neither first nor last. -/
def dropInnerEmpty (segments : List Text) : List Text :=
  match segments with
  | [] => []
  | first :: rest => first :: (rest.dropLast.filter fun s => !s.isEmpty) ++ rest.getLast?.toList

/-- Works out `.` and `..`, given the segments so far in reverse. A `..` with nothing before it is
ignored. -/
def dropDots (done : List Text) : List Text → List Text
  | [] => done.reverse
  | ['.', '.'] :: segments => dropDots done.tail segments
  | ['.'] :: segments => dropDots done segments
  | segment :: segments => dropDots (segment :: done) segments

/-- Whether a segment only moves between directories. -/
def isDots (segment : Text) : Bool := segment == ['.'] || segment == ['.', '.']

/-- The segments of a path that is resolved against the path of the base. -/
def resolvedSegments (base path : Text) : List Text :=
  let own := Text.splitAt '/' path
  if path.head? = some '/' then own
  else
    let segments := Text.splitAt '/' base
    let directory := if segments.getLast? = some [] then segments else segments.dropLast
    dropInnerEmpty (directory ++ own)

/-- A path resolved against the path of the base. -/
def resolvePath (base path : Text) : Text :=
  let segments := resolvedSegments base path
  let resolved := dropDots [] segments
    ++ (if segments.getLast?.any isDots then [[]] else [])
  let joined := Text.join ['/'] resolved
  if joined.isEmpty then ['/'] else joined

/-- The parts of a link of the base's scheme, resolved against the base. A link with an authority
is complete but for its scheme. -/
def Url.resolve (base u : Url) : Url :=
  if u.authority ≠ [] then u
  else if u.path = [] ∧ u.params = [] then
    { u with
      authority := base.authority
      path := base.path
      params := base.params
      query := if u.query = [] then base.query else u.query }
  else { u with authority := base.authority, path := resolvePath base.path u.path }

/-- A link resolved against a base. A link of another scheme, or of one without relative links,
stays as it is. -/
def resolve (base link : Text) : Except Fault Text :=
  if link = [] then .ok base
  else do
    let base ← Url.split [] base
    let u ← Url.split base.scheme link
    if u.scheme = base.scheme ∧ relativeSchemes.contains u.scheme then return (base.resolve u).text
    else return link

/-- The base for the links of a feed: a site, with one slash at its end. -/
def baseOf (site : Text) : Text := Text.dropTrailing (· == '/') site ++ ['/']

end Headline.Link
