import Headline.Query.Token

/-!
# Nesting of brackets

`Brackets` tells which elements of a list open a group and which close one. The height of a list is
the number of groups it leaves open, and `Within` bounds the depth at which groups open, the
outermost ones at depth one. Both split along a list: `height_append`, `within_append`.
-/

namespace Headline.Query

/-- Which elements open a group and which close one. -/
structure Brackets (α : Type) where
  opens : α → Bool
  closes : α → Bool

namespace Brackets

variable {α : Type} (b : Brackets α)

/-- How many more groups are opened than closed. -/
def height (s : List α) : Int := s.countP b.opens - s.countP b.closes

/-- Every opening element of `s` sits at depth at most `limit`. -/
def Within (limit : Int) (s : List α) : Prop :=
  ∀ before x after, s = before ++ x :: after → b.opens x → b.height before + 1 ≤ limit

variable {b}

@[simp] theorem height_nil : b.height [] = 0 := rfl

theorem height_append (s t : List α) : b.height (s ++ t) = b.height s + b.height t := by
  simp only [height, List.countP_append]
  omega

theorem height_cons (x : α) (s : List α) : b.height (x :: s) = b.height [x] + b.height s :=
  height_append [x] s

theorem height_singleton_opens {x : α} (ho : b.opens x) (hc : b.closes x = false) :
    b.height [x] = 1 := by
  simp [height, ho, hc]

theorem height_singleton_closes {x : α} (ho : b.opens x = false) (hc : b.closes x) :
    b.height [x] = -1 := by
  simp [height, ho, hc]

/-- Elements that are no brackets change no height. -/
theorem height_eq_zero {s : List α} (h : ∀ x ∈ s, b.opens x = false ∧ b.closes x = false) :
    b.height s = 0 := by
  have ho : s.countP b.opens = 0 := List.countP_eq_zero.2 fun x hx => by simp [(h x hx).1]
  have hc : s.countP b.closes = 0 := List.countP_eq_zero.2 fun x hx => by simp [(h x hx).2]
  rw [height, ho, hc]
  rfl

@[simp] theorem within_nil (limit : Int) : b.Within limit [] := by
  intro before x after h
  simp at h

theorem within_cons {limit : Int} {x : α} {s : List α} :
    b.Within limit (x :: s) ↔ (b.opens x → 1 ≤ limit) ∧ b.Within (limit - b.height [x]) s := by
  constructor
  · intro h
    refine ⟨fun hx => by simpa using h [] x s rfl hx, fun before y after hs hy => ?_⟩
    have := h (x :: before) y after (by rw [hs]; rfl) hy
    rw [height_cons] at this
    omega
  · rintro ⟨hx, hs⟩ before y after h hy
    -- the parenthesis is the element in front, or one behind it
    cases before with
    | nil =>
      obtain ⟨rfl, -⟩ := List.cons_eq_cons.1 h
      simpa using hx hy
    | cons z before =>
      obtain ⟨rfl, htail⟩ := List.cons_eq_cons.1 h
      have := hs before y after htail hy
      rw [height_cons]
      omega

theorem within_append {limit : Int} {s t : List α} :
    b.Within limit (s ++ t) ↔ b.Within limit s ∧ b.Within (limit - b.height s) t := by
  induction s generalizing limit with
  | nil => simp
  | cons x s ih =>
    rw [List.cons_append, within_cons, within_cons, ih, and_assoc, height_cons x s,
      Int.sub_sub]

theorem Within.mono {limit limit' : Int} {s : List α} (h : b.Within limit s)
    (hle : limit ≤ limit') : b.Within limit' s :=
  fun before x after hs hx => Int.le_trans (h before x after hs hx) hle

/-- Elements that open nothing are within any bound. -/
theorem within_of_forall_not_opens {limit : Int} {s : List α} (h : ∀ x ∈ s, b.opens x = false) :
    b.Within limit s := by
  intro before x after hs hx
  rw [h x (by rw [hs]; simp)] at hx
  exact absurd hx (by decide)

end Brackets

/-- The parentheses among tokens. -/
def tokenBrackets : Brackets Token where
  opens t := t.kind = .opening
  closes t := t.kind = .closing

/-- The parentheses of a text. -/
def textBrackets : Brackets Char where
  opens c := c = '('
  closes c := c = ')'

theorem height_token_of_opening {t : Token} (h : t.kind = .opening) :
    tokenBrackets.height [t] = 1 :=
  Brackets.height_singleton_opens (by simp [tokenBrackets, h]) (by simp [tokenBrackets, h])

theorem height_token_of_closing {t : Token} (h : t.kind = .closing) :
    tokenBrackets.height [t] = -1 :=
  Brackets.height_singleton_closes (by simp [tokenBrackets, h]) (by simp [tokenBrackets, h])

theorem height_token_of_other {t : Token} (ho : t.kind ≠ .opening) (hc : t.kind ≠ .closing) :
    tokenBrackets.height [t] = 0 :=
  Brackets.height_eq_zero (by simp [tokenBrackets, ho, hc])

theorem height_text_of_other {s : Text} (h : ∀ c ∈ s, c ≠ '(' ∧ c ≠ ')') :
    textBrackets.height s = 0 :=
  Brackets.height_eq_zero fun c hc => by simp [textBrackets, h c hc]

theorem within_cons_of_other {limit : Int} {t : Token} {ts : List Token} (ho : t.kind ≠ .opening)
    (hc : t.kind ≠ .closing) :
    tokenBrackets.Within limit (t :: ts) ↔ tokenBrackets.Within limit ts := by
  rw [Brackets.within_cons, height_token_of_other ho hc, Int.sub_zero, and_iff_right]
  simp [tokenBrackets, ho]

end Headline.Query
