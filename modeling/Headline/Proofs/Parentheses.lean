import Headline.Proofs.Nesting

/-!
# Matching parentheses

A `)` closes the group of a `(` when the text between the two is balanced; a `(` that no `)` closes
is left open (`Unclosed`). Going over a text from the left with the places of the open groups, one
is pushed by each `(` and popped by each `)`. What this leaves are the places of the parentheses
that are left open, and those of the groups in front that the text does not close
(`openedBehind_eq`).
-/

namespace Headline.Query

namespace Brackets

variable {α : Type} {b : Brackets α} {depth : Int} {x : α} {s : List α}

/-! ## Balanced lists -/

/-- Each opening element of the list is closed in it, and each closing one closes one of them. -/
def Balanced (b : Brackets α) (s : List α) : Prop :=
  b.height s = 0 ∧ ∀ before, before <+: s → 0 ≤ b.height before

/-- Inside `depth` groups the list closes them all, and those that it opens itself. -/
def Descends (b : Brackets α) (depth : Int) (s : List α) : Prop :=
  depth + b.height s = 0 ∧ ∀ before, before <+: s → 0 ≤ depth + b.height before

theorem balanced_iff_descends : b.Balanced s ↔ b.Descends 0 s := by
  simp only [Balanced, Descends, Int.zero_add]

theorem Descends.nonneg (h : b.Descends depth s) : 0 ≤ depth := by
  simpa using h.2 [] List.nil_prefix

theorem descends_nil : b.Descends depth [] ↔ depth = 0 := by
  constructor
  · intro h
    simpa using h.1
  · rintro rfl
    refine ⟨rfl, fun before hbefore => ?_⟩
    rw [List.prefix_nil.1 hbefore]
    exact Int.le_refl _

theorem descends_cons :
    b.Descends depth (x :: s) ↔ 0 ≤ depth ∧ b.Descends (depth + b.height [x]) s := by
  constructor
  · intro h
    refine ⟨h.nonneg, ?_, fun before hbefore => ?_⟩
    · rw [Int.add_assoc, ← height_cons]
      exact h.1
    · rw [Int.add_assoc, ← height_cons]
      exact h.2 _ (List.cons_prefix_cons.2 ⟨rfl, hbefore⟩)
  · rintro ⟨hdepth, hend, hprefixes⟩
    refine ⟨?_, fun before hbefore => ?_⟩
    · rw [height_cons, ← Int.add_assoc]
      exact hend
    · cases before with
      | nil => simpa using hdepth
      | cons y before =>
        obtain ⟨rfl, hrest⟩ := List.cons_prefix_cons.1 hbefore
        rw [height_cons, ← Int.add_assoc]
        exact hprefixes before hrest

end Brackets

/-! ## Closed and open groups -/

/-- Behind balanced text there is a `)`, which closes the group that the text begins in. -/
def ClosesGroup (s : Text) : Prop :=
  ∃ inner rest, s = inner ++ ')' :: rest ∧ textBrackets.Balanced inner

/-- At place `p` of a text there is a `(` whose group is not closed in it. -/
def Unclosed (s : Text) (p : Nat) : Prop := s[p]? = some '(' ∧ ¬ ClosesGroup (s.drop (p + 1))

/-- How many of the groups in front of a text are closed in it. -/
def closings : Text → Nat
  | [] => 0
  | c :: s => if c = '(' then closings s - 1 else if c = ')' then closings s + 1 else closings s

/-- The places of the parentheses that are left open, in a text that starts at `position`. -/
def leftOpen (position : Nat) : Text → List Nat
  | [] => []
  | c :: s =>
    if c = '(' ∧ closings s = 0 then position :: leftOpen (position + 1) s
    else leftOpen (position + 1) s

/-- Inside so many groups of its own, a text comes to a `)` that closes one in front of it. -/
def Escapes (depth : Int) (s : Text) : Prop :=
  ∃ inner rest, s = inner ++ ')' :: rest ∧ textBrackets.Descends depth inner

theorem escapes_cons {depth : Int} {c : Char} {s : Text} :
    Escapes depth (c :: s) ↔
      c = ')' ∧ depth = 0 ∨ 0 ≤ depth ∧ Escapes (depth + textBrackets.height [c]) s := by
  constructor
  · rintro ⟨inner, rest, h, hinner⟩
    cases inner with
    | nil =>
      obtain ⟨rfl, -⟩ := List.cons_eq_cons.1 h
      exact .inl ⟨rfl, Brackets.descends_nil.1 hinner⟩
    | cons d inner =>
      obtain ⟨rfl, rfl⟩ := List.cons_eq_cons.1 h
      obtain ⟨hdepth, hinner⟩ := Brackets.descends_cons.1 hinner
      exact .inr ⟨hdepth, inner, rest, rfl, hinner⟩
  · rintro (⟨rfl, hdepth⟩ | ⟨hdepth, inner, rest, rfl, hinner⟩)
    · exact ⟨[], s, rfl, Brackets.descends_nil.2 hdepth⟩
    · exact ⟨c :: inner, rest, rfl, Brackets.descends_cons.2 ⟨hdepth, hinner⟩⟩

theorem lt_closings_iff {depth : Nat} {s : Text} : depth < closings s ↔ Escapes depth s := by
  induction s generalizing depth with
  | nil =>
    refine ⟨fun h => absurd h (Nat.not_lt_zero _), ?_⟩
    rintro ⟨inner, rest, h, -⟩
    simp at h
  | cons c s ih =>
    have hdepth : 0 ≤ (depth : Int) := Int.natCast_nonneg depth
    rw [escapes_cons, closings]
    by_cases hopen : c = '('
    · subst hopen
      have hheight : (depth : Int) + textBrackets.height ['('] = (depth + 1 : Nat) := rfl
      rw [if_pos rfl, hheight, ← ih, or_iff_right (by simp), and_iff_right hdepth]
      omega
    · rw [if_neg hopen]
      by_cases hclose : c = ')'
      · subst hclose
        rw [if_pos rfl]
        -- outside of all groups this is the parenthesis that has nothing to close
        cases depth with
        | zero => exact ⟨fun _ => .inl ⟨rfl, rfl⟩, fun _ => Nat.succ_pos _⟩
        | succ depth =>
          have hheight : ((depth + 1 : Nat) : Int) + textBrackets.height [')'] = depth := by
            rw [show textBrackets.height [')'] = -1 from rfl]
            omega
          rw [hheight, ← ih, or_iff_right (by omega), and_iff_right hdepth,
            Nat.add_lt_add_iff_right]
      · have hheight : textBrackets.height [c] = 0 :=
          height_text_of_other (by simp [hopen, hclose])
        rw [if_neg hclose, hheight, Int.add_zero, ← ih, or_iff_right (fun h => hclose h.1),
          and_iff_right hdepth]

theorem closesGroup_iff {s : Text} : ClosesGroup s ↔ closings s ≠ 0 := by
  rw [← Nat.pos_iff_ne_zero, lt_closings_iff]
  exact exists_congr fun _ => exists_congr fun _ =>
    and_congr_right' Brackets.balanced_iff_descends

theorem unclosed_cons_zero {c : Char} {s : Text} :
    Unclosed (c :: s) 0 ↔ c = '(' ∧ closings s = 0 := by
  simp [Unclosed, closesGroup_iff]

theorem unclosed_cons_succ {c : Char} {s : Text} {p : Nat} :
    Unclosed (c :: s) (p + 1) ↔ Unclosed s p := Iff.rfl

theorem mem_leftOpen_iff {position p : Nat} {s : Text} :
    p ∈ leftOpen position s ↔ ∃ i, p = position + i ∧ Unclosed s i := by
  induction s generalizing position with
  | nil => simp [leftOpen, Unclosed]
  | cons c s ih =>
    have hshift : ∀ i, p = position + (i + 1) ↔ p = position + 1 + i := by omega
    rw [← Nat.or_exists_add_one, unclosed_cons_zero, Nat.add_zero]
    simp only [unclosed_cons_succ, hshift]
    rw [← ih, leftOpen]
    split
    · next h => simp [h]
    · next h => simp [h]

theorem unclosed_iff_mem {s : Text} {p : Nat} : Unclosed s p ↔ p ∈ leftOpen 0 s := by
  simp [mem_leftOpen_iff]

instance (s : Text) (p : Nat) : Decidable (Unclosed s p) := decidable_of_iff' _ unclosed_iff_mem

/-- Places are found from left to right. -/
theorem pairwise_leftOpen (position : Nat) (s : Text) : (leftOpen position s).Pairwise (· < ·) := by
  induction s generalizing position with
  | nil => exact .nil
  | cons c s ih =>
    rw [leftOpen]
    split
    · refine .cons (fun p hp => ?_) (ih _)
      obtain ⟨i, rfl, -⟩ := mem_leftOpen_iff.1 hp
      omega
    · exact ih _

/-! ## Going over a text -/

/-- The places of the open groups, innermost first, behind a character at `position`. -/
def opensBehind (position : Nat) (c : Char) (opened : List Nat) : List Nat :=
  if c = '(' then position :: opened else if c = ')' then opened.tail else opened

/-- The places of the open groups behind a text that starts at `position`. -/
def openedBehind : (opened : List Nat) → (position : Nat) → Text → List Nat
  | opened, _, [] => opened
  | opened, position, c :: s => openedBehind (opensBehind position c opened) (position + 1) s

theorem openedBehind_concat (opened : List Nat) (position : Nat) (s : Text) (c : Char) :
    openedBehind opened position (s ++ [c]) =
      opensBehind (position + s.length) c (openedBehind opened position s) := by
  induction s generalizing opened position with
  | nil => rfl
  | cons d s ih =>
    rw [List.cons_append, openedBehind, openedBehind, ih, List.length_cons, Nat.add_assoc,
      Nat.add_comm 1]

/-- What is open behind a text: the groups that it leaves open, and of those in front of it the ones
that it does not close. -/
theorem openedBehind_eq (opened : List Nat) (position : Nat) (s : Text) :
    openedBehind opened position s =
      (leftOpen position s).reverse ++ opened.drop (closings s) := by
  induction s generalizing opened position with
  | nil => rfl
  | cons c s ih =>
    rw [openedBehind, ih, leftOpen, closings, opensBehind]
    by_cases hopen : c = '('
    · rw [if_pos hopen, if_pos hopen]
      -- the first parenthesis that is left over behind it closes this group
      cases hk : closings s with
      | zero => simp [hopen]
      | succ k => simp
    · have hnone : ¬ (c = '(' ∧ closings s = 0) := fun h => hopen h.1
      rw [if_neg hopen, if_neg hopen, if_neg hnone]
      by_cases hclose : c = ')'
      · rw [if_pos hclose, if_pos hclose, List.drop_tail]
      · rw [if_neg hclose, if_neg hclose]

end Headline.Query
