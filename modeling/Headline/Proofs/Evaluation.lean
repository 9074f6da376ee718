import Headline.Query.Expr

/-!
# Evaluation side by side

An operation is evaluated over the operands of its whole chain. `evaluate_and` and `evaluate_or`
say what that comes to for its two sides: the right one is asked only when the left one leaves the
answer open. A tree read from a query has no foreign leaf, so it answers `true` or `false`, and
there the operations are those of the truth values (`accepts_and`, `accepts_or`, `accepts_not`).
-/

namespace Headline.Query

section Subtypes

variable {α ε : Type} {p : α → Prop} (f : α → Except ε Bool) (xs : List { a // p a })

theorem allM_subtype : (xs.allM fun x => f x.1) = (xs.map Subtype.val).allM f := by
  induction xs with
  | nil => rfl
  | cons x xs ih => rw [List.map_cons, List.allM_cons, List.allM_cons, ih]

theorem anyM_subtype : (xs.anyM fun x => f x.1) = (xs.map Subtype.val).anyM f := by
  induction xs with
  | nil => rfl
  | cons x xs ih => rw [List.map_cons, List.anyM_cons, List.anyM_cons, ih]

end Subtypes

namespace Expr

variable {α : Type} (text : Text)

theorem evaluate_and_eq_allM (left right : Expr α) :
    evaluate text (and left right) = (left.conjunctsThen [right]).allM (evaluate text) := by
  rw [evaluate, allM_subtype (evaluate text), List.attach_map_subtype_val, conjuncts]

theorem evaluate_or_eq_anyM (left right : Expr α) :
    evaluate text (or left right) = (left.disjunctsThen [right]).anyM (evaluate text) := by
  rw [evaluate, anyM_subtype (evaluate text), List.attach_map_subtype_val, disjuncts]

/-- Asking a chain of conjuncts, and then others, asks the conjunction first. -/
theorem allM_conjunctsThen (e : Expr α) (after : List (Expr α)) :
    (e.conjunctsThen after).allM (evaluate text) = (e :: after).allM (evaluate text) := by
  induction e generalizing after with
  | and left right ihl ihr =>
    have hand : evaluate text (and left right) = [left, right].allM (evaluate text) := by
      rw [evaluate_and_eq_allM, ihl]
    rw [conjunctsThen, ihl, List.allM_cons, List.allM_cons, List.allM_cons, hand, List.allM_cons,
      List.allM_cons]
    rcases evaluate text left with a | _ | _
    · rfl
    · rfl
    · rcases evaluate text right with a | _ | _ <;> rfl
  | _ => rfl

/-- Asking a chain of disjuncts, and then others, asks the disjunction first. -/
theorem anyM_disjunctsThen (e : Expr α) (after : List (Expr α)) :
    (e.disjunctsThen after).anyM (evaluate text) = (e :: after).anyM (evaluate text) := by
  induction e generalizing after with
  | or left right ihl ihr =>
    have hor : evaluate text (or left right) = [left, right].anyM (evaluate text) := by
      rw [evaluate_or_eq_anyM, ihl]
    rw [disjunctsThen, ihl, List.anyM_cons, List.anyM_cons, List.anyM_cons, hor, List.anyM_cons,
      List.anyM_cons]
    rcases evaluate text left with a | _ | _
    · rfl
    · rcases evaluate text right with a | _ | _ <;> rfl
    · rfl
  | _ => rfl

/-- The right side of a conjunction is asked when the left one is true. -/
theorem evaluate_and (left right : Expr α) :
    evaluate text (and left right) =
      (evaluate text left >>= fun b => if b then evaluate text right else .ok false) := by
  rw [evaluate_and_eq_allM, allM_conjunctsThen, List.allM_cons, List.allM_cons]
  rcases evaluate text left with a | _ | _
  · rfl
  · rfl
  · rcases evaluate text right with a | _ | _ <;> rfl

/-- The right side of a disjunction is asked when the left one is false. -/
theorem evaluate_or (left right : Expr α) :
    evaluate text (or left right) =
      (evaluate text left >>= fun b => if b then .ok true else evaluate text right) := by
  rw [evaluate_or_eq_anyM, anyM_disjunctsThen, List.anyM_cons, List.anyM_cons]
  rcases evaluate text left with a | _ | _
  · rfl
  · rcases evaluate text right with a | _ | _ <;> rfl
  · rfl

end Expr

namespace Tree

variable (text : Text)

theorem evaluate_eq (t : Tree) : t.evaluate text = .ok (t.accepts text) := by
  rw [accepts]
  cases t.evaluate text with
  | error a => cases a
  | ok b => rfl

theorem accepts_of_evaluate {t : Tree} {b : Bool} (h : t.evaluate text = .ok b) :
    t.accepts text = b := by
  rw [accepts, h]
  rfl

theorem accepts_and (left right : Tree) :
    accepts (.and left right) text = (left.accepts text && right.accepts text) := by
  apply accepts_of_evaluate
  rw [Expr.evaluate_and, evaluate_eq, evaluate_eq]
  cases left.accepts text <;> rfl

theorem accepts_or (left right : Tree) :
    accepts (.or left right) text = (left.accepts text || right.accepts text) := by
  apply accepts_of_evaluate
  rw [Expr.evaluate_or, evaluate_eq, evaluate_eq]
  cases left.accepts text <;> rfl

theorem accepts_not (t : Tree) : accepts (.not t) text = !t.accepts text := by
  apply accepts_of_evaluate
  rw [Expr.evaluate, evaluate_eq]
  rfl

end Tree

end Headline.Query
