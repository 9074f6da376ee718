import Headline.Proofs.Composition
import Headline.Proofs.Description
import Mathlib.Data.List.MinMax
import Mathlib.Order.Nat

/-!
# The height of a tree

How deep evaluation and description go into a tree. A chain is one step, however long it is, since
its operands are visited one after the other (`height_join`). So between two levels of groups there
are three steps at most: a disjunction, a conjunction and a negation (`Derivation.heightWithin`).
Hence the nesting of a query bounds the height of its tree, and its length does not
(`height_le_of_parse`).
-/

namespace Headline.Query

namespace Expr

variable {α : Type}

/-- How many steps into operands lie on the longest way down, the first one to the expression
itself. -/
def height : Expr α → Nat
  | word _ | foreign _ => 1
  | and left right => ((conjuncts left right).attach.map fun x => height x.1).foldr max 0 + 1
  | or left right => ((disjuncts left right).attach.map fun x => height x.1).foldr max 0 + 1
  | not e => height e + 1
termination_by e => sizeOf e
decreasing_by
  · exact sizeOf_lt_of_mem_conjuncts x.2
  · exact sizeOf_lt_of_mem_disjuncts x.2
  · simp only [not.sizeOf_spec]; omega

theorem height_join (c : Connective) (left right : Expr α) :
    height (c.join left right) = ((c.operands left right).map height).foldr max 0 + 1 := by
  cases c with
  | and =>
    show height (and left right) = _
    rw [height, List.map_subtype (g := height) fun _ _ => rfl, List.unattach_attach]
    rfl
  | or =>
    show height (or left right) = _
    rw [height, List.map_subtype (g := height) fun _ _ => rfl, List.unattach_attach]
    rfl

/-- A chain is one step higher than its highest operand. -/
theorem height_join_le_iff {c : Connective} {left right : Expr α} {n : Nat} :
    height (c.join left right) ≤ n + 1 ↔ ∀ x ∈ c.operands left right, x.height ≤ n := by
  rw [height_join, Nat.add_le_add_iff_right]
  constructor
  · intro h x hx
    exact (List.le_max_of_le (List.mem_map_of_mem hx) (Nat.le_refl _)).trans h
  · intro h
    refine List.max_le_of_forall_le _ _ fun k hk => ?_
    obtain ⟨x, hx, rfl⟩ := List.mem_map.1 hk
    exact h x hx

end Expr

namespace Connective

variable {α : Type} {c : Connective} {e left right : Expr α} {n : Nat}

/-! ## Operands -/

/-- What is no chain of the connective is its only operand. -/
theorem operandsThen_cases (c : Connective) (e : Expr α) :
    (∃ left right, e = c.join left right) ∨ c.operandsThen e [] = [e] := by
  cases c with
  | and =>
    cases e with
    | and left right => exact .inl ⟨left, right, rfl⟩
    | _ => exact .inr rfl
  | or =>
    cases e with
    | or left right => exact .inl ⟨left, right, rfl⟩
    | _ => exact .inr rfl

theorem operandsThen_eq_append (c : Connective) (e : Expr α) (after : List (Expr α)) :
    c.operandsThen e after = c.operandsThen e [] ++ after := by
  obtain ⟨first, more, -, hoperands⟩ := c.exists_unfolds e
  rw [hoperands, hoperands, List.append_nil]
  rfl

/-- The operands of a chain, or what stands alone, are at most so high. -/
def OperandsWithin (c : Connective) (n : Nat) (e : Expr α) : Prop :=
  ∀ x ∈ c.operandsThen e [], x.height ≤ n

theorem operandsWithin_of_height_le (h : e.height ≤ n) : c.OperandsWithin n e := by
  rcases c.operandsThen_cases e with ⟨left, right, rfl⟩ | halone
  · have hoperands := Expr.height_join_le_iff.1 (h.trans (Nat.le_succ n))
    rwa [operands, ← operandsThen_join] at hoperands
  · intro x hx
    rw [halone] at hx
    obtain rfl := List.mem_singleton.1 hx
    exact h

theorem height_le_of_operandsWithin (h : c.OperandsWithin n e) : e.height ≤ n + 1 := by
  rcases c.operandsThen_cases e with ⟨left, right, rfl⟩ | halone
  · rw [OperandsWithin, operandsThen_join] at h
    exact Expr.height_join_le_iff.2 h
  · exact (h e (by rw [halone]; exact List.mem_singleton.2 rfl)).trans (Nat.le_succ n)

theorem OperandsWithin.join (hleft : c.OperandsWithin n left) (hright : right.height ≤ n) :
    c.OperandsWithin n (c.join left right) := by
  rw [OperandsWithin, operandsThen_join, operandsThen_eq_append, List.forall_mem_append]
  exact ⟨hleft, by simpa using hright⟩

end Connective

/-! ## Heights of phrases -/

/-- A phrase of the rank, its groups nested at most `levels` deep, is at most so high. -/
def HeightWithin (levels : Nat) : (r : Rank) → r.Meaning → Prop
  | .primary, t => t.height ≤ 3 * levels + 1
  | .negation, t => t.height ≤ 3 * levels + 2
  | .conjunction, t => t.height ≤ 3 * levels + 3
  | .expression, t => t.height ≤ 3 * levels + 4
  | .conjuncts, f => ∀ left, Connective.and.OperandsWithin (3 * levels + 2) left →
      Connective.and.OperandsWithin (3 * levels + 2) (f left)
  | .disjuncts, f => ∀ left, Connective.or.OperandsWithin (3 * levels + 3) left →
      Connective.or.OperandsWithin (3 * levels + 3) (f left)

namespace Derivation

variable {j : Juncture} {r : Rank}

theorem heightWithin (d : Derivation j r) {levels : Nat} (hd : d.depth ≤ levels) :
    HeightWithin levels r d.tree := by
  induction d generalizing levels with
  | word t h =>
    show Expr.height (.word t.spelling) ≤ _
    rw [Expr.height]
    exact Nat.le_add_left ..
  | group l hl e r hr ih =>
    -- a group takes up a level and holds an expression that has one level less
    cases levels with
    | zero => exact absurd hd (Nat.not_succ_le_zero _)
    | succ levels => exact ih (Nat.le_of_succ_le_succ hd)
  | plain p ih => exact (ih hd).trans (Nat.le_succ _)
  | negated n hn p ih =>
    show Expr.height (.not p.tree) ≤ _
    rw [Expr.height]
    exact Nat.succ_le_succ (ih hd)
  | conjunction n ns ihn ihns =>
    obtain ⟨hdn, hdns⟩ := Nat.max_le.1 hd
    have hn : Connective.and.OperandsWithin (3 * levels + 2) n.tree :=
      Connective.operandsWithin_of_height_le (ihn hdn)
    exact Connective.height_le_of_operandsWithin (ihns hdns n.tree hn)
  | noConjunct => exact fun left hleft => hleft
  | and o ho n ns ihn ihns | adjacent ho n ns ihn ihns =>
    obtain ⟨hdn, hdns⟩ := Nat.max_le.1 hd
    -- the new operand joins the ones on its left, which keep within their bound
    exact fun left hleft => ihns hdns _ (hleft.join (ihn hdn))
  | expression c cs ihc ihcs =>
    obtain ⟨hdc, hdcs⟩ := Nat.max_le.1 hd
    have hc : Connective.or.OperandsWithin (3 * levels + 3) c.tree :=
      Connective.operandsWithin_of_height_le (ihc hdc)
    exact Connective.height_le_of_operandsWithin (ihcs hdcs c.tree hc)
  | noDisjunct => exact fun left hleft => hleft
  | or o ho c cs ihc ihcs =>
    obtain ⟨hdc, hdcs⟩ := Nat.max_le.1 hd
    exact fun left hleft => ihcs hdcs _ (hleft.join (ihc hdc))

end Derivation

/-- Each level that groups may nest adds three steps to the height that the tree of a query can
have, and nothing else does: not its words, operators or groups, however many there are. -/
theorem height_le_of_parse {q : Text} {limit : Nat} {t : Tree} (h : parse q limit = .ok t) :
    t.height ≤ 3 * (limit + 1) + 1 := by
  obtain ⟨d, hscan, rfl⟩ := parse_iff_derivation.1 h
  have hwithin := within_of_scans hscan
  rw [List.length_nil, Int.natCast_zero, Int.sub_zero, d.within_tokens_iff] at hwithin
  exact d.heightWithin hwithin

/-- One level of groups, and as high as a tree may be there. -/
theorem height_of_nested_chains :
    ∃ t, parse "a OR b -(c OR d -e) f OR g".toList (1 : Nat) = .ok t ∧ t.height ≤ 7 ∧
      t.height = 7 := by
  let inner : Tree := .or (.word ['c']) (.and (.word ['d']) (.not (.word ['e'])))
  have h : parse "a OR b -(c OR d -e) f OR g".toList (1 : Nat) =
      .ok (.or (.or (.word ['a']) (.and (.and (.word ['b']) (.not inner)) (.word ['f'])))
        (.word ['g'])) := by decide +kernel
  exact ⟨_, h, height_le_of_parse h, by decide +kernel⟩

end Headline.Query
