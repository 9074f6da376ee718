import Headline.Query.Expr

/-!
# Chains of operands

A conjunction that leans to the left is described as one chain, and a disjunction is too.
`Connective` speaks of both at once: every expression is a word, a negation, a foreign leaf or a
chain of at least two operands (`chain_induction`), and it is the chain of just these
(`exists_operands`). `describe_join` is the description of a chain.
-/

namespace Headline

theorem Text.join_cons (sep part : Text) (parts : List Text) :
    join sep (part :: parts) = part ++ parts.flatMap (sep ++ ·) := by
  induction parts generalizing part with
  | nil => simp [join]
  | cons next parts ih =>
    have ih : sep.intercalate (next :: parts) = _ := ih next
    rw [join, List.intercalate_cons_cons, ih, List.flatMap_cons, List.append_assoc,
      List.append_assoc]

namespace Query

/-- The operations that make chains. -/
inductive Connective where
  | and
  | or
  deriving DecidableEq

namespace Connective

variable {α : Type}

/-- How a description names the operation. -/
def name : Connective → Text
  | and => "AND".toList
  | or => "OR".toList

/-- What stands between two operands of a description. -/
def separator (c : Connective) : Text := ' ' :: (c.name ++ [' '])

/-- The operation. -/
def join : Connective → Expr α → Expr α → Expr α
  | and => .and
  | or => .or

/-- The operands of a chain that leans to the left, in order, and then `after`. -/
def operandsThen : Connective → Expr α → List (Expr α) → List (Expr α)
  | and => Expr.conjunctsThen
  | or => Expr.disjunctsThen

/-- The operands of an operation. -/
def operands (c : Connective) (left right : Expr α) : List (Expr α) := c.operandsThen left [right]

theorem operandsThen_join (c : Connective) (left right : Expr α) (after : List (Expr α)) :
    c.operandsThen (c.join left right) after = c.operandsThen left (right :: after) := by
  cases c <;> rfl

/-- The chain of `first` and `more` is `e`, and these are its operands. -/
def Unfolds (c : Connective) (e first : Expr α) (more : List (Expr α)) : Prop :=
  more.foldl c.join first = e ∧ ∀ after, c.operandsThen e after = first :: (more ++ after)

theorem Unfolds.join {c : Connective} {left first : Expr α} {more : List (Expr α)}
    (h : c.Unfolds left first more) (right : Expr α) :
    c.Unfolds (c.join left right) first (more ++ [right]) := by
  obtain ⟨rfl, hoperands⟩ := h
  refine ⟨List.foldl_append, fun after => ?_⟩
  rw [operandsThen_join, hoperands, List.append_assoc]
  rfl

theorem exists_unfolds (c : Connective) (e : Expr α) : ∃ first more, c.Unfolds e first more := by
  cases c with
  | and =>
    induction e with
    | and left right ihl _ =>
      obtain ⟨first, more, h⟩ := ihl
      exact ⟨first, more ++ [right], h.join right⟩
    | _ => exact ⟨_, [], rfl, fun _ => rfl⟩
  | or =>
    induction e with
    | or left right ihl _ =>
      obtain ⟨first, more, h⟩ := ihl
      exact ⟨first, more ++ [right], h.join right⟩
    | _ => exact ⟨_, [], rfl, fun _ => rfl⟩

/-- An operation has a first operand and others, and it is the chain of them. -/
theorem exists_operands (c : Connective) (left right : Expr α) :
    ∃ first more, more ≠ [] ∧ more.foldl c.join first = c.join left right ∧
      c.operands left right = first :: more := by
  obtain ⟨first, more, h⟩ := c.exists_unfolds left
  exact ⟨first, more ++ [right], by simp, (h.join right).1, h.2 [right]⟩

section Operands

variable {c : Connective}

/-- What an operation collects from its two sides, it collects from its operands. -/
theorem flatMap_operands {β : Type} {collect : Expr α → List β}
    (h : ∀ left right, collect (c.join left right) = collect left ++ collect right)
    (left right : Expr α) :
    (c.operands left right).flatMap collect = collect (c.join left right) := by
  have hfold : ∀ (es : List (Expr α)) e,
      collect (es.foldl c.join e) = collect e ++ es.flatMap collect := by
    intro es
    induction es with
    | nil => exact fun e => (List.append_nil _).symm
    | cons x es ih =>
      intro e
      rw [List.foldl_cons, ih, h, List.flatMap_cons, List.append_assoc]
  obtain ⟨first, more, -, hjoin, hoperands⟩ := c.exists_operands left right
  rw [← hjoin, hoperands, hfold, List.flatMap_cons]

/-- What holds of an operation when it holds of both sides, holds when it holds of all operands. -/
theorem forall_mem_operands_iff {p : Expr α → Prop}
    (h : ∀ left right, p (c.join left right) ↔ p left ∧ p right) (left right : Expr α) :
    (∀ x ∈ c.operands left right, p x) ↔ p (c.join left right) := by
  have hfold : ∀ (es : List (Expr α)) e, p (es.foldl c.join e) ↔ ∀ x ∈ e :: es, p x := by
    intro es
    induction es with
    | nil => simp
    | cons x es ih =>
      intro e
      rw [List.foldl_cons, ih, List.forall_mem_cons, h, List.forall_mem_cons, List.forall_mem_cons,
        and_assoc]
  obtain ⟨first, more, -, hjoin, hoperands⟩ := c.exists_operands left right
  rw [← hjoin, hoperands, hfold]

end Operands

end Connective

namespace Expr

variable {α : Type}

/-- Induction along chains: what holds of all operands of a chain holds of the chain. -/
@[elab_as_elim]
theorem chain_induction {motive : Expr α → Prop} (word : ∀ w, motive (word w))
    (chain : ∀ (c : Connective) left right, (∀ x ∈ c.operands left right, motive x) →
      motive (c.join left right))
    (not : ∀ e, motive e → motive (not e)) (foreign : ∀ a, motive (foreign a)) (e : Expr α) :
    motive e := by
  induction e using describe.induct with
  | case1 w => exact word w
  | case2 left right ih => exact chain .and left right fun x hx => ih ⟨x, hx⟩
  | case3 left right ih => exact chain .or left right fun x hx => ih ⟨x, hx⟩
  | case4 e ih => exact not e ih
  | case5 a => exact foreign a

theorem describe_join (c : Connective) (left right : Expr α) :
    describe (c.join left right) =
      ((c.operands left right).mapM describe >>= fun parts =>
        pure ('(' :: Text.join c.separator parts ++ [')'])) := by
  cases c with
  | and =>
    show describe (and left right) = _
    rw [describe, List.mapM_subtype (g := describe) fun _ _ => rfl, List.unattach_attach]
    rfl
  | or =>
    show describe (or left right) = _
    rw [describe, List.mapM_subtype (g := describe) fun _ _ => rfl, List.unattach_attach]
    rfl

end Expr

/-! ## Descriptions of trees -/

namespace Tree

theorem describe_eq (t : Tree) : t.describe = .ok t.description := by
  rw [description]
  cases t.describe with
  | error a => cases a
  | ok s => rfl

theorem description_of_describe {t : Tree} {s : Text} (h : t.describe = .ok s) :
    t.description = s := by
  rw [description, h]
  rfl

theorem description_word (w : Text) : description (.word w) = w :=
  description_of_describe (by rw [Expr.describe])

theorem description_not (t : Tree) :
    description (.not t) = "(NOT ".toList ++ t.description ++ [')'] := by
  apply description_of_describe
  rw [Expr.describe, describe_eq]
  rfl

theorem description_join (c : Connective) (left right : Tree) :
    description (c.join left right) =
      '(' :: Text.join c.separator ((c.operands left right).map description) ++ [')'] := by
  apply description_of_describe
  have hparts : (c.operands left right).mapM Expr.describe =
      .ok ((c.operands left right).map description) := by
    rw [funext describe_eq]
    exact List.mapM_pure
  rw [Expr.describe_join, hparts]
  rfl

end Tree

end Query

end Headline
