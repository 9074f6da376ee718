import Headline.Text.Basic

/-!
# Query expressions

A query is a tree of words under conjunction, disjunction and negation. `Expr α` also admits
foreign leaves of type `α`, which neither match nor print: meeting one is an error that names it.
A tree read from a query has none of them (`Query := Expr Empty`).
-/

namespace Headline.Query

/-- Boolean expressions over words, with foreign leaves in `α`. -/
inductive Expr (α : Type) where
  | word (w : Text)
  | and (left right : Expr α)
  | or (left right : Expr α)
  | not (operand : Expr α)
  | foreign (a : α)
  deriving DecidableEq, Repr

/-- The tree of a query. -/
abbrev Tree := Expr Empty

namespace Expr

variable {α : Type}

/-- The wording for a foreign leaf that was met, with what is shown of it. -/
def unsupported (shown : Text) : Text := "Unsupported query node: ".toList ++ shown

/-! ## Chains -/

/-- The operands of a conjunction that leans to the left, in order, and then `after`. -/
def conjunctsThen : Expr α → List (Expr α) → List (Expr α)
  | and left right, after => left.conjunctsThen (right :: after)
  | e, after => e :: after

/-- The operands of a disjunction that leans to the left, in order, and then `after`. -/
def disjunctsThen : Expr α → List (Expr α) → List (Expr α)
  | or left right, after => left.disjunctsThen (right :: after)
  | e, after => e :: after

theorem sizeOf_le_of_mem_conjunctsThen {e x : Expr α} {after : List (Expr α)}
    (h : x ∈ e.conjunctsThen after) : sizeOf x ≤ sizeOf e ∨ x ∈ after := by
  induction e generalizing after with
  | and left right ihl _ =>
    simp only [and.sizeOf_spec]
    rcases ihl h with h | h
    · left; omega
    · rcases List.mem_cons.1 h with rfl | h
      · left; omega
      · exact .inr h
  | _ =>
    rcases List.mem_cons.1 h with rfl | h
    · exact .inl (Nat.le_refl _)
    · exact .inr h

theorem sizeOf_le_of_mem_disjunctsThen {e x : Expr α} {after : List (Expr α)}
    (h : x ∈ e.disjunctsThen after) : sizeOf x ≤ sizeOf e ∨ x ∈ after := by
  induction e generalizing after with
  | or left right ihl _ =>
    simp only [or.sizeOf_spec]
    rcases ihl h with h | h
    · left; omega
    · rcases List.mem_cons.1 h with rfl | h
      · left; omega
      · exact .inr h
  | _ =>
    rcases List.mem_cons.1 h with rfl | h
    · exact .inl (Nat.le_refl _)
    · exact .inr h

/-- The operands of the conjunction of `left` and `right`. -/
def conjuncts (left right : Expr α) : List (Expr α) := left.conjunctsThen [right]

/-- The operands of the disjunction of `left` and `right`. -/
def disjuncts (left right : Expr α) : List (Expr α) := left.disjunctsThen [right]

theorem sizeOf_lt_of_mem_conjuncts {left right x : Expr α} (h : x ∈ conjuncts left right) :
    sizeOf x < sizeOf (and left right) := by
  simp only [and.sizeOf_spec]
  rcases sizeOf_le_of_mem_conjunctsThen h with h | h
  · omega
  · obtain rfl := List.mem_singleton.1 h
    omega

theorem sizeOf_lt_of_mem_disjuncts {left right x : Expr α} (h : x ∈ disjuncts left right) :
    sizeOf x < sizeOf (or left right) := by
  simp only [or.sizeOf_spec]
  rcases sizeOf_le_of_mem_disjunctsThen h with h | h
  · omega
  · obtain rfl := List.mem_singleton.1 h
    omega

/-! ## Evaluation -/

/-- Whether `text` satisfies the expression. A chain stops at the first operand that decides it,
so a foreign leaf counts only when it is reached. -/
def evaluate (text : Text) : Expr α → Except α Bool
  | word w => .ok (w.occursIn text)
  | and left right => (conjuncts left right).attach.allM fun x => evaluate text x.1
  | or left right => (disjuncts left right).attach.anyM fun x => evaluate text x.1
  | not e => (!·) <$> evaluate text e
  | foreign a => .error a
termination_by e => sizeOf e
decreasing_by
  · exact sizeOf_lt_of_mem_conjuncts x.2
  · exact sizeOf_lt_of_mem_disjuncts x.2
  · simp only [not.sizeOf_spec]; omega

/-! ## Description -/

/-- The expression with parentheses around every operation. -/
def describe : Expr α → Except α Text
  | word w => .ok w
  | and left right => do
    let parts ← (conjuncts left right).attach.mapM fun x => describe x.1
    return '(' :: Text.join " AND ".toList parts ++ [')']
  | or left right => do
    let parts ← (disjuncts left right).attach.mapM fun x => describe x.1
    return '(' :: Text.join " OR ".toList parts ++ [')']
  | not e => do
    let part ← describe e
    return "(NOT ".toList ++ part ++ [')']
  | foreign a => .error a
termination_by e => sizeOf e
decreasing_by
  · exact sizeOf_lt_of_mem_conjuncts x.2
  · exact sizeOf_lt_of_mem_disjuncts x.2
  · simp only [not.sizeOf_spec]; omega

end Expr

/-! ## Trees -/

/-- The result of a computation that has no error to give. -/
def ofFlawless {β : Type} : Except Empty β → β
  | .ok b => b

/-- Whether `text` satisfies the query. -/
def Tree.accepts (t : Tree) (text : Text) : Bool := ofFlawless (t.evaluate text)

/-- The query with parentheses around every operation. -/
def Tree.description (t : Tree) : Text := ofFlawless t.describe

end Headline.Query
