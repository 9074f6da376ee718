import Headline.Proofs.Nesting
import Headline.Query.Expr

/-!
# The grammar of queries

```text
expression  := conjunction (OR conjunction)*
conjunction := negation (AND negation)*          strict
conjunction := negation (AND? negation)*         with the AND left out at will
negation    := NOT? primary
primary     := WORD | LEFT_PAREN expression RIGHT_PAREN
```

A `Derivation` is a derivation of this grammar, with a rank of its own for what a starred part
repeats. It spells out a token list (`tokens`), has a tree (`tree`) and nests its groups (`depth`).

* `eq_of_tokens_append`: no list has two derivations, whatever follows that cannot continue one.
* `within_tokens_iff`: the depth of a derivation is the depth of the parentheses it spells.
-/

namespace Headline.Query

/-- What joins the operands of a conjunction: a written `AND`, or also nothing at all. -/
inductive Juncture where
  | written
  | optional
  deriving DecidableEq

/-- The phrases of the grammar. `disjuncts` and `conjuncts` are what follows a first operand. -/
inductive Rank where
  | expression
  | disjuncts
  | conjunction
  | conjuncts
  | negation
  | primary
  deriving DecidableEq

/-- The derivations of the grammar. -/
inductive Derivation (j : Juncture) : Rank → Type
  | word (t : Token) (h : t.kind = .word) : Derivation j .primary
  | group (l : Token) (hl : l.kind = .opening) (e : Derivation j .expression)
      (r : Token) (hr : r.kind = .closing) : Derivation j .primary
  | plain (p : Derivation j .primary) : Derivation j .negation
  | negated (n : Token) (hn : n.kind = .not) (p : Derivation j .primary) : Derivation j .negation
  | conjunction (n : Derivation j .negation) (ns : Derivation j .conjuncts) :
      Derivation j .conjunction
  | noConjunct : Derivation j .conjuncts
  | and (o : Token) (ho : o.kind = .and) (n : Derivation j .negation)
      (ns : Derivation j .conjuncts) : Derivation j .conjuncts
  | adjacent (hj : j = .optional) (n : Derivation j .negation) (ns : Derivation j .conjuncts) :
      Derivation j .conjuncts
  | expression (c : Derivation j .conjunction) (cs : Derivation j .disjuncts) :
      Derivation j .expression
  | noDisjunct : Derivation j .disjuncts
  | or (o : Token) (ho : o.kind = .or) (c : Derivation j .conjunction)
      (cs : Derivation j .disjuncts) : Derivation j .disjuncts

/-- What a phrase stands for: a tree, or what becomes of the tree of the operands before it. -/
abbrev Rank.Meaning : Rank → Type
  | .disjuncts | .conjuncts => Tree → Tree
  | .expression | .conjunction | .negation | .primary => Tree

namespace Derivation

variable {j : Juncture} {r : Rank}

/-- The tokens that a derivation spells out. -/
def tokens : {r : Rank} → Derivation j r → List Token
  | _, .word t _ => [t]
  | _, .group l _ e r _ => l :: (e.tokens ++ [r])
  | _, .plain p => p.tokens
  | _, .negated n _ p => n :: p.tokens
  | _, .conjunction n ns => n.tokens ++ ns.tokens
  | _, .noConjunct => []
  | _, .and o _ n ns => o :: (n.tokens ++ ns.tokens)
  | _, .adjacent _ n ns => n.tokens ++ ns.tokens
  | _, .expression c cs => c.tokens ++ cs.tokens
  | _, .noDisjunct => []
  | _, .or o _ c cs => o :: (c.tokens ++ cs.tokens)

/-- The tree of a derivation. Repeated operands lean to the left, and groups leave no node. -/
def tree : {r : Rank} → Derivation j r → r.Meaning
  | _, .word t _ => Expr.word t.spelling
  | _, .group _ _ e _ _ => e.tree
  | _, .plain p => p.tree
  | _, .negated _ _ p => Expr.not p.tree
  | _, .conjunction n ns => ns.tree n.tree
  | _, .noConjunct => fun left => left
  | _, .and _ _ n ns => fun left => ns.tree (Expr.and left n.tree)
  | _, .adjacent _ n ns => fun left => ns.tree (Expr.and left n.tree)
  | _, .expression c cs => cs.tree c.tree
  | _, .noDisjunct => fun left => left
  | _, .or _ _ c cs => fun left => cs.tree (Expr.or left c.tree)

/-- How deep groups stand inside one another. -/
def depth : {r : Rank} → Derivation j r → Nat
  | _, .word _ _ | _, .noConjunct | _, .noDisjunct => 0
  | _, .group _ _ e _ _ => e.depth + 1
  | _, .plain p | _, .negated _ _ p => p.depth
  | _, .conjunction n ns | _, .and _ _ n ns | _, .adjacent _ n ns => max n.depth ns.depth
  | _, .expression c cs | _, .or _ _ c cs => max c.depth cs.depth

/-! ### First tokens -/

theorem exists_head_of_primary (p : Derivation j .primary) :
    ∃ t us, p.tokens = t :: us ∧ (t.kind = .word ∨ t.kind = .opening) := by
  cases p with
  | word t h => exact ⟨t, [], rfl, .inl h⟩
  | group l hl e r hr => exact ⟨l, e.tokens ++ [r], rfl, .inr hl⟩

theorem exists_head_of_negation (n : Derivation j .negation) :
    ∃ t us, n.tokens = t :: us ∧ t.kind.startsOperand := by
  cases n with
  | plain p =>
    obtain ⟨t, us, h, hk⟩ := p.exists_head_of_primary
    refine ⟨t, us, h, ?_⟩
    rcases hk with hk | hk <;> rw [hk] <;> rfl
  | negated n hn p => exact ⟨n, p.tokens, rfl, by rw [hn]; rfl⟩

theorem exists_head_of_conjunction (c : Derivation j .conjunction) :
    ∃ t us, c.tokens = t :: us ∧ t.kind.startsOperand := by
  cases c with
  | conjunction n ns =>
    obtain ⟨t, us, h, hk⟩ := n.exists_head_of_negation
    exact ⟨t, us ++ ns.tokens, by rw [tokens, h, List.cons_append], hk⟩

theorem exists_head_of_expression (e : Derivation j .expression) :
    ∃ t us, e.tokens = t :: us ∧ t.kind.startsOperand := by
  cases e with
  | expression c cs =>
    obtain ⟨t, us, h, hk⟩ := c.exists_head_of_conjunction
    exact ⟨t, us ++ cs.tokens, by rw [tokens, h, List.cons_append], hk⟩

end Derivation

/-! ### What may follow -/

/-- Whether a phrase of this rank may go on with a token of kind `k`. -/
def Rank.continuesWith (j : Juncture) (r : Rank) (k : TokenKind) : Bool :=
  let extendsConjunction := k = .and || (j = .optional && k.startsOperand)
  match r with
  | .expression | .disjuncts => k = .or || extendsConjunction
  | .conjunction | .conjuncts => extendsConjunction
  | .negation | .primary => false

/-- A phrase of this rank in front of `rest` has come to its end. -/
def Rank.EndsBefore (j : Juncture) (r : Rank) (rest : List Token) : Prop :=
  ∀ t us, rest = t :: us → r.continuesWith j t.kind = false

namespace Derivation

variable {j : Juncture} {r : Rank}

theorem endsBefore_nil : r.EndsBefore j [] := by
  intro t us h
  cases h

theorem negation_endsBefore (rest : List Token) : Rank.negation.EndsBefore j rest :=
  fun _ _ _ => rfl

theorem primary_endsBefore (rest : List Token) : Rank.primary.EndsBefore j rest :=
  fun _ _ _ => rfl

theorem endsBefore_closing {t : Token} (ht : t.kind = .closing) (rest : List Token) :
    r.EndsBefore j (t :: rest) := by
  intro t' us h
  obtain ⟨rfl, -⟩ := List.cons_eq_cons.1 h
  rw [ht]
  cases r <;> simp [Rank.continuesWith, TokenKind.startsOperand]

/-- A conjunction ends where the next `OR` stands or the whole expression ends. -/
theorem conjunction_endsBefore (cs : Derivation j .disjuncts) {rest : List Token}
    (h : Rank.disjuncts.EndsBefore j rest) : Rank.conjunction.EndsBefore j (cs.tokens ++ rest) := by
  cases cs with
  | noDisjunct =>
    intro t us ht
    have := h t us ht
    simp only [Rank.continuesWith, Bool.or_eq_false_iff] at this
    simpa only [Rank.continuesWith, Bool.or_eq_false_iff] using this.2
  | or o ho c cs =>
    intro t us ht
    obtain ⟨rfl, -⟩ := List.cons_eq_cons.1 ht
    rw [ho]
    simp [Rank.continuesWith, TokenKind.startsOperand]

/-! ### Unambiguity -/

theorem primary_tokens_append_ne (p : Derivation j .primary) {t : Token} (ht : t.kind = .not)
    {us vs : List Token} : p.tokens ++ us ≠ t :: vs := by
  obtain ⟨t', us', h, hk⟩ := p.exists_head_of_primary
  intro he
  simp only [h, List.cons_append, List.cons.injEq] at he
  obtain ⟨rfl, -⟩ := he
  simp [ht] at hk

theorem negation_tokens_append_ne (n : Derivation j .negation) {t : Token} (ht : t.kind = .and)
    {us vs : List Token} : n.tokens ++ us ≠ t :: vs := by
  obtain ⟨t', us', h, hk⟩ := n.exists_head_of_negation
  intro he
  simp only [h, List.cons_append, List.cons.injEq] at he
  obtain ⟨rfl, -⟩ := he
  simp [ht, TokenKind.startsOperand] at hk

theorem not_endsBefore_and {o : Token} (ho : o.kind = .and) {us rest : List Token}
    (h : rest = o :: us) : ¬ Rank.conjuncts.EndsBefore j rest := by
  intro he
  have := he o us h
  simp [Rank.continuesWith, ho] at this

theorem not_endsBefore_adjacent (hj : j = .optional) (n : Derivation j .negation)
    {us rest : List Token} (h : rest = n.tokens ++ us) : ¬ Rank.conjuncts.EndsBefore j rest := by
  obtain ⟨t, vs, ht, hk⟩ := n.exists_head_of_negation
  intro he
  have := he t (vs ++ us) (by rw [h, ht]; rfl)
  simp [Rank.continuesWith, hj, hk] at this

theorem not_endsBefore_or {o : Token} (ho : o.kind = .or) {us rest : List Token}
    (h : rest = o :: us) : ¬ Rank.disjuncts.EndsBefore j rest := by
  intro he
  have := he o us h
  simp [Rank.continuesWith, ho] at this

/-- Two derivations that spell out the same tokens, each in front of something that cannot continue
it, are the same. -/
theorem eq_of_tokens_append {d d' : Derivation j r} {rest rest' : List Token}
    (h : d.tokens ++ rest = d'.tokens ++ rest') (he : r.EndsBefore j rest)
    (he' : r.EndsBefore j rest') : d = d' ∧ rest = rest' := by
  -- the other derivation starts with the same token, which leaves few forms to it
  induction d generalizing rest rest' with
  | word t ht =>
    cases d' with
    | word t' ht' =>
      obtain ⟨rfl, rfl⟩ := List.cons_eq_cons.1 h
      exact ⟨rfl, rfl⟩
    | group l hl e r hr =>
      obtain ⟨rfl, -⟩ := List.cons_eq_cons.1 h
      cases ht.symm.trans hl
  | group l hl e r hr ih =>
    cases d' with
    | word t ht =>
      obtain ⟨rfl, -⟩ := List.cons_eq_cons.1 h
      cases ht.symm.trans hl
    | group l' hl' e' r' hr' =>
      simp only [tokens, List.cons_append, List.append_assoc, List.nil_append,
        List.cons.injEq] at h
      obtain ⟨rfl, hin⟩ := h
      -- in both groups the content ends in front of a closing parenthesis
      obtain ⟨rfl, hout⟩ := ih hin (endsBefore_closing hr rest) (endsBefore_closing hr' rest')
      obtain ⟨rfl, rfl⟩ := List.cons_eq_cons.1 hout
      exact ⟨rfl, rfl⟩
  | plain p ih =>
    cases d' with
    | plain p' =>
      obtain ⟨rfl, rfl⟩ := ih h (primary_endsBefore rest) (primary_endsBefore rest')
      exact ⟨rfl, rfl⟩
    | negated n hn p' => exact absurd h (p.primary_tokens_append_ne hn)
  | negated n hn p ih =>
    cases d' with
    | plain p' => exact absurd h.symm (p'.primary_tokens_append_ne hn)
    | negated n' hn' p' =>
      obtain ⟨rfl, hp⟩ := List.cons_eq_cons.1 h
      obtain ⟨rfl, rfl⟩ := ih hp (primary_endsBefore rest) (primary_endsBefore rest')
      exact ⟨rfl, rfl⟩
  | conjunction n ns ihn ihns =>
    cases d' with
    | conjunction n' ns' =>
      simp only [tokens, List.append_assoc] at h
      obtain ⟨rfl, hns⟩ := ihn h (negation_endsBefore _) (negation_endsBefore _)
      obtain ⟨rfl, rfl⟩ := ihns hns he he'
      exact ⟨rfl, rfl⟩
  | noConjunct =>
    cases d' with
    | noConjunct => exact ⟨rfl, h⟩
    | and o ho n ns => exact absurd he (not_endsBefore_and ho h)
    | adjacent hj n ns =>
      -- the other derivation has one operand more, but no operand starts behind this one
      simp only [tokens, List.append_assoc, List.nil_append] at h
      exact absurd he (n.not_endsBefore_adjacent hj h)
  | and o ho n ns ihn ihns =>
    cases d' with
    | noConjunct => exact absurd he' (not_endsBefore_and ho h.symm)
    | and o' ho' n' ns' =>
      simp only [tokens, List.cons_append, List.append_assoc, List.cons.injEq] at h
      obtain ⟨rfl, hn⟩ := h
      obtain ⟨rfl, hns⟩ := ihn hn (negation_endsBefore _) (negation_endsBefore _)
      obtain ⟨rfl, rfl⟩ := ihns hns he he'
      exact ⟨rfl, rfl⟩
    | adjacent hj n' ns' =>
      simp only [tokens, List.append_assoc] at h
      exact absurd h.symm (n'.negation_tokens_append_ne ho)
  | adjacent hj n ns ihn ihns =>
    cases d' with
    | noConjunct =>
      simp only [tokens, List.append_assoc, List.nil_append] at h
      exact absurd he' (n.not_endsBefore_adjacent hj h.symm)
    | and o ho n' ns' =>
      simp only [tokens, List.append_assoc] at h
      exact absurd h (n.negation_tokens_append_ne ho)
    | adjacent hj' n' ns' =>
      simp only [tokens, List.append_assoc] at h
      obtain ⟨rfl, hns⟩ := ihn h (negation_endsBefore _) (negation_endsBefore _)
      obtain ⟨rfl, rfl⟩ := ihns hns he he'
      exact ⟨rfl, rfl⟩
  | expression c cs ihc ihcs =>
    cases d' with
    | expression c' cs' =>
      simp only [tokens, List.append_assoc] at h
      obtain ⟨rfl, hcs⟩ := ihc h (cs.conjunction_endsBefore he) (cs'.conjunction_endsBefore he')
      obtain ⟨rfl, rfl⟩ := ihcs hcs he he'
      exact ⟨rfl, rfl⟩
  | noDisjunct =>
    cases d' with
    | noDisjunct => exact ⟨rfl, h⟩
    | or o ho c cs => exact absurd he (not_endsBefore_or ho h)
  | or o ho c cs ihc ihcs =>
    cases d' with
    | noDisjunct => exact absurd he' (not_endsBefore_or ho h.symm)
    | or o' ho' c' cs' =>
      simp only [tokens, List.cons_append, List.append_assoc, List.cons.injEq] at h
      obtain ⟨rfl, hc⟩ := h
      obtain ⟨rfl, hcs⟩ := ihc hc (cs.conjunction_endsBefore he) (cs'.conjunction_endsBefore he')
      obtain ⟨rfl, rfl⟩ := ihcs hcs he he'
      exact ⟨rfl, rfl⟩

theorem tokens_injective : Function.Injective (tokens : Derivation j r → List Token) := by
  intro d d' h
  have hnil : d.tokens ++ [] = d'.tokens ++ [] := by rw [h]
  exact (eq_of_tokens_append hnil endsBefore_nil endsBefore_nil).1

/-! ### Depth -/

/-- A derivation closes every group that it opens. -/
theorem height_tokens (d : Derivation j r) : tokenBrackets.height d.tokens = 0 := by
  induction d with
  | word t h => exact height_token_of_other (by simp [h]) (by simp [h])
  | group l hl e r hr ih =>
    rw [tokens, Brackets.height_cons, Brackets.height_append, ih, height_token_of_opening hl,
      height_token_of_closing hr]
    rfl
  | plain p ih => exact ih
  | negated n hn p ih =>
    rw [tokens, Brackets.height_cons, ih, height_token_of_other (by simp [hn]) (by simp [hn])]
    rfl
  | conjunction n ns ihn ihns => rw [tokens, Brackets.height_append, ihn, ihns]; rfl
  | noConjunct => rfl
  | and o ho n ns ihn ihns =>
    rw [tokens, Brackets.height_cons, Brackets.height_append, ihn, ihns,
      height_token_of_other (by simp [ho]) (by simp [ho])]
    rfl
  | adjacent hj n ns ihn ihns => rw [tokens, Brackets.height_append, ihn, ihns]; rfl
  | expression c cs ihc ihcs => rw [tokens, Brackets.height_append, ihc, ihcs]; rfl
  | noDisjunct => rfl
  | or o ho c cs ihc ihcs =>
    rw [tokens, Brackets.height_cons, Brackets.height_append, ihc, ihcs,
      height_token_of_other (by simp [ho]) (by simp [ho])]
    rfl

/-- Every parenthesis of a derivation sits within `limit` when its groups nest no deeper. -/
theorem within_tokens_iff (d : Derivation j r) {limit : Int} :
    tokenBrackets.Within limit d.tokens ↔ d.depth ≤ limit.toNat := by
  induction d generalizing limit with
  | word t h => simp [tokens, depth, Brackets.within_cons, tokenBrackets, h]
  | group l hl e r hr ih =>
    -- behind its content a group does nothing but close
    have hlast : tokenBrackets.Within (limit - 1 - tokenBrackets.height e.tokens) [r] :=
      Brackets.within_of_forall_not_opens (by simp [tokenBrackets, hr])
    rw [tokens, Brackets.within_cons, Brackets.within_append, height_token_of_opening hl, ih,
      and_iff_left hlast, depth]
    have hopens : tokenBrackets.opens l = true := by simp [tokenBrackets, hl]
    rw [hopens]
    constructor
    · rintro ⟨h1, hd⟩
      have := h1 rfl
      omega
    · intro h
      exact ⟨fun _ => by omega, by omega⟩
  | plain p ih => exact ih
  | negated n hn p ih =>
    rw [tokens, within_cons_of_other (by simp [hn]) (by simp [hn]), ih]
    rfl
  | conjunction n ns ihn ihns =>
    rw [tokens, Brackets.within_append, height_tokens, Int.sub_zero, ihn, ihns, ← Nat.max_le]
    rfl
  | noConjunct => simp [tokens, depth]
  | and o ho n ns ihn ihns =>
    rw [tokens, within_cons_of_other (by simp [ho]) (by simp [ho]), Brackets.within_append,
      height_tokens, Int.sub_zero, ihn, ihns, ← Nat.max_le]
    rfl
  | adjacent hj n ns ihn ihns =>
    rw [tokens, Brackets.within_append, height_tokens, Int.sub_zero, ihn, ihns, ← Nat.max_le]
    rfl
  | expression c cs ihc ihcs =>
    rw [tokens, Brackets.within_append, height_tokens, Int.sub_zero, ihc, ihcs, ← Nat.max_le]
    rfl
  | noDisjunct => simp [tokens, depth]
  | or o ho c cs ihc ihcs =>
    rw [tokens, within_cons_of_other (by simp [ho]) (by simp [ho]), Brackets.within_append,
      height_tokens, Int.sub_zero, ihc, ihcs, ← Nat.max_le]
    rfl

end Derivation

end Headline.Query
