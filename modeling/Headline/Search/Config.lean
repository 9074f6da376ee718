import Headline.Text.Basic

/-!
# Search configuration

By which date results are sorted, in which order, how many are shown, and what becomes of a query
that is no boolean query. `Config.ofParts` names the first part that is not admissible.
-/

namespace Headline.Search

/-- The date that results are sorted by. -/
inductive SortField where
  | published
  | updated
  deriving DecidableEq, Repr

/-- Oldest first or newest first. -/
inductive SortOrder where
  | ascending
  | descending
  deriving DecidableEq, Repr

/-- What becomes of a query that is rejected: it is searched for as a plain substring, or the
search fails. -/
inductive Fallback where
  | substring
  | strict
  deriving DecidableEq, Repr

/-- The name of a sort field. -/
def SortField.name : SortField → Text
  | published => "news_date".toList
  | updated => "updated".toList

/-- The name of a sort order. -/
def SortOrder.name : SortOrder → Text
  | ascending => "asc".toList
  | descending => "desc".toList

/-- The name of a fallback. -/
def Fallback.name : Fallback → Text
  | substring => "substring".toList
  | strict => "strict".toList

/-- The sort field of a name. -/
def SortField.ofName? (s : Text) : Option SortField :=
  [published, updated].find? fun f => f.name = s

/-- The sort order of a name. -/
def SortOrder.ofName? (s : Text) : Option SortOrder :=
  [ascending, descending].find? fun o => o.name = s

/-- The fallback of a name. -/
def Fallback.ofName? (s : Text) : Option Fallback :=
  [substring, strict].find? fun f => f.name = s

/-- How to search. Without a limit every match is shown. -/
structure Config where
  sortField : SortField := .published
  sortOrder : SortOrder := .descending
  limit : Option Nat := some 10
  fallback : Fallback := .substring
  limit_pos : ∀ n ∈ limit, 0 < n := by decide
  deriving Repr

/-- Why parts make no configuration. -/
inductive ConfigFault where
  | sortField (name : Text)
  | sortOrder (name : Text)
  | limit (n : Int)
  | fallback (name : Text)
  deriving DecidableEq, Repr

/-- The wording of the fault. -/
def ConfigFault.message : ConfigFault → Text
  | sortField s => "Unsupported sort field: ".toList ++ s
  | sortOrder s => "Unsupported sort order: ".toList ++ s
  | limit n => "display_limit must be positive, got ".toList ++ Text.ofInt n
  | fallback s => "Unsupported fallback mode: ".toList ++ s

/-- The configuration with the given parts, which are checked in order. -/
def Config.ofParts (sortField sortOrder : Text) (limit : Option Int) (fallback : Text) :
    Except ConfigFault Config :=
  match SortField.ofName? sortField, SortOrder.ofName? sortOrder with
  | none, _ => .error (.sortField sortField)
  | _, none => .error (.sortOrder sortOrder)
  | some field, some order =>
    match limit with
    | none =>
      match Fallback.ofName? fallback with
      | none => .error (.fallback fallback)
      | some mode => .ok ⟨field, order, none, mode, by simp⟩
    | some n =>
      if h : 0 < n then
        match Fallback.ofName? fallback with
        | none => .error (.fallback fallback)
        | some mode =>
          .ok ⟨field, order, some n.toNat, mode, by simp; omega⟩
      else .error (.limit n)

end Headline.Search
