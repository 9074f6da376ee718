import Headline.Proofs.Description
import Headline.Proofs.Evaluation
import Mathlib.Data.List.Infix

/-!
# Foreign leaves

A foreign leaf matters to the evaluation only when it is reached, going from left to right and no
further than the answer asks for (`Reaches`). A description goes over the whole expression, so the
first foreign leaf of all stops it (`foreigns`).

Both are defined over chains of operands here, and compared with what stands at the two sides of an
operation: `evaluate_eq_sideBySide`, `describe_eq_error_iff`.
-/

namespace Headline.Query

/-! ## Computations that may fail -/

section Failures

variable {α β γ : Type} {a : α}

theorem bind_eq_error_iff {x : Except α β} {f : β → Except α γ} :
    x >>= f = .error a ↔ x = .error a ∨ ∃ b, x = .ok b ∧ f b = .error a := by
  cases x <;> simp [bind, Except.bind]

/-- Where each computation reports the first of its faults, a list of them reports the first fault
of all. -/
theorem mapM_eq_error_iff {f : β → Except α γ} {faults : β → List α} {xs : List β}
    (h : ∀ x ∈ xs, ∀ a, f x = .error a ↔ (faults x).head? = some a) :
    xs.mapM f = .error a ↔ (xs.flatMap faults).head? = some a := by
  induction xs with
  | nil => simp [pure, Except.pure]
  | cons x xs ih =>
    obtain ⟨hx, hxs⟩ := List.forall_mem_cons.1 h
    rw [List.mapM_cons, List.flatMap_cons, List.head?_append, bind_eq_error_iff, hx a]
    cases hf : f x with
    | error b => rw [(hx b).1 hf]; simp
    | ok c =>
      -- what can be described has no faults of its own, so the first one is among the rest
      have hnone : (faults x).head? = none := by
        refine Option.eq_none_iff_forall_ne_some.2 fun b hb => ?_
        rw [(hx b).2 hb] at hf
        cases hf
      rw [hnone, Option.none_or, ← ih hxs]
      simp [bind_eq_error_iff, pure, Except.pure]

end Failures

namespace Expr

variable {α : Type}

/-! ## Evaluation -/

/-- Evaluation that goes from the left side of an operation to the right one, unless the left one
decides it. -/
def sideBySide (text : Text) : Expr α → Except α Bool
  | word w => .ok (w <:+: text)
  | and left right => do
    if ← left.sideBySide text then right.sideBySide text else return false
  | or left right => do
    if ← left.sideBySide text then return true else right.sideBySide text
  | not e => do return !(← e.sideBySide text)
  | foreign a => .error a

/-- The foreign leaf `a` is reached before anything has decided the answer. -/
inductive Reaches (text : Text) (a : α) : Expr α → Prop
  | foreign : Reaches text a (foreign a)
  | not {e} (h : Reaches text a e) : Reaches text a (not e)
  | andLeft {left right} (h : Reaches text a left) : Reaches text a (and left right)
  | andRight {left right} (hleft : left.sideBySide text = .ok true) (h : Reaches text a right) :
      Reaches text a (and left right)
  | orLeft {left right} (h : Reaches text a left) : Reaches text a (or left right)
  | orRight {left right} (hleft : left.sideBySide text = .ok false) (h : Reaches text a right) :
      Reaches text a (or left right)

variable {text : Text} {a : α}

theorem evaluate_eq_sideBySide (text : Text) (e : Expr α) :
    e.evaluate text = e.sideBySide text := by
  induction e with
  | word w =>
    have hw : w.occursIn text = decide (w <:+: text) :=
      Bool.eq_iff_iff.2 (Text.occursIn_iff.trans decide_eq_true_iff.symm)
    rw [evaluate, hw]
    rfl
  | and left right ihl ihr =>
    rw [evaluate_and, ihl, ihr]
    rfl
  | or left right ihl ihr =>
    rw [evaluate_or, ihl, ihr]
    rfl
  | not e ih =>
    rw [evaluate, ih, sideBySide]
    cases e.sideBySide text <;> rfl
  | foreign a => rw [evaluate, sideBySide]

theorem sideBySide_eq_error_iff {e : Expr α} :
    e.sideBySide text = .error a ↔ e.Reaches text a := by
  constructor
  · intro h
    induction e with
    | word w => cases h
    | and left right ihl ihr =>
      rw [sideBySide, bind_eq_error_iff] at h
      rcases h with h | ⟨b, hleft, h⟩
      · exact .andLeft (ihl h)
      -- the right side is looked at only if the left one holds
      · cases b with
        | false => cases h
        | true => exact .andRight hleft (ihr h)
    | or left right ihl ihr =>
      rw [sideBySide, bind_eq_error_iff] at h
      rcases h with h | ⟨b, hleft, h⟩
      · exact .orLeft (ihl h)
      -- the right side is looked at only if the left one does not hold
      · cases b with
        | false => exact .orRight hleft (ihr h)
        | true => cases h
    | not e ih =>
      rw [sideBySide, bind_eq_error_iff] at h
      rcases h with h | ⟨b, -, h⟩
      · exact .not (ih h)
      · cases h
    | foreign b =>
      cases h
      exact .foreign
  · intro h
    induction h with
    | foreign => rfl
    | not h ih | andLeft h ih | orLeft h ih =>
      rw [sideBySide, ih]
      rfl
    | andRight hleft h ih | orRight hleft h ih =>
      rw [sideBySide, hleft]
      exact ih

/-! ## Description -/

/-- The foreign leaves, from left to right. -/
def foreigns : Expr α → List α
  | word _ => []
  | and left right | or left right => left.foreigns ++ right.foreigns
  | not e => e.foreigns
  | foreign a => [a]

theorem describe_eq_error_iff {e : Expr α} :
    e.describe = .error a ↔ e.foreigns.head? = some a := by
  induction e using chain_induction generalizing a with
  | word w => simp [describe, foreigns]
  | chain c left right ih =>
    -- the operands of a chain hold all its foreign leaves, in order
    have hforeigns : ∀ left right : Expr α,
        (c.join left right).foreigns = left.foreigns ++ right.foreigns := by
      cases c <;> exact fun _ _ => rfl
    have hparts := mapM_eq_error_iff (a := a) fun x hx _ => ih x hx
    rw [describe_join, ← Connective.flatMap_operands hforeigns, ← hparts, bind_eq_error_iff]
    simp [pure, Except.pure]
  | not e ih =>
    rw [describe, foreigns, ← ih, bind_eq_error_iff]
    simp [pure, Except.pure]
  | foreign b => simp [describe, foreigns]

/-- Evaluation over chains is evaluation side by side. It fails with the foreign leaf that it
reaches, and with no other one. A description fails with the first foreign leaf, wherever it is. -/
theorem evaluate_short_circuits (e : Expr α) (text : Text) :
    e.evaluate text = e.sideBySide text ∧
    (∀ a, e.evaluate text = .error a ↔ e.Reaches text a) ∧
    (∀ a, e.describe = .error a ↔ e.foreigns.head? = some a) := by
  refine ⟨evaluate_eq_sideBySide text e, fun a => ?_, fun a => describe_eq_error_iff⟩
  rw [evaluate_eq_sideBySide, sideBySide_eq_error_iff]

end Expr

end Headline.Query
