import Headline.Proofs.Recognition

/-!
# Adjacent operands

`joinAdjacent` writes an `AND` just where the grammar with optional `AND`s leaves one out.

* `exists_written_of_optional`: what the lenient grammar derives, the strict one derives once the
  pass has been over it.
* `exists_optional_of_thins`: leaving `AND`s out of a phrase gives a phrase of the lenient grammar.
* `omits_joinAfter`: the pass adds nothing but `AND`s between two operands.
-/

namespace Headline.Query

/-! ## The pass behind a token -/

/-- Whether an operand ends where `us` does, when one has ended in front of it or not. -/
def operandEnds (ended : Bool) (us : List Token) : Bool :=
  us.foldl (fun _ t => t.kind.endsOperand) ended

/-- The pass over what follows, when an operand has ended in front of it or not. -/
def joinAfter (ended : Bool) : List Token → List Token
  | [] => []
  | t :: ts =>
    if ended ∧ t.kind.startsOperand then t.adjacency :: t :: joinAfter t.kind.endsOperand ts
    else t :: joinAfter t.kind.endsOperand ts

theorem operandEnds_append (ended : Bool) (us vs : List Token) :
    operandEnds ended (us ++ vs) = operandEnds (operandEnds ended us) vs :=
  List.foldl_append

/-- Where phrases that each end an operand stand in a row, an operand ends. -/
theorem operandEnds_append_eq_true {ended : Bool} {us vs : List Token}
    (hus : operandEnds ended us = true) (hvs : operandEnds true vs = true) :
    operandEnds ended (us ++ vs) = true := by
  rw [operandEnds_append, hus, hvs]

theorem joinAfter_join {t : Token} (ht : t.kind.startsOperand) (ts : List Token) :
    joinAfter true (t :: ts) = t.adjacency :: t :: joinAfter t.kind.endsOperand ts := by
  rw [joinAfter, if_pos ⟨rfl, ht⟩]

theorem joinAfter_keep {ended : Bool} {t : Token} (h : ¬ (ended ∧ t.kind.startsOperand))
    (ts : List Token) : joinAfter ended (t :: ts) = t :: joinAfter t.kind.endsOperand ts := by
  rw [joinAfter, if_neg h]

theorem joinAfter_false_cons (t : Token) (ts : List Token) :
    joinAfter false (t :: ts) = t :: joinAfter t.kind.endsOperand ts :=
  joinAfter_keep (by simp) ts

/-- In front of an operator or a closing parenthesis nothing is written. -/
theorem joinAfter_of_not_starts {t : Token} (ht : t.kind.startsOperand = false) (ended : Bool)
    (ts : List Token) : joinAfter ended (t :: ts) = t :: joinAfter t.kind.endsOperand ts :=
  joinAfter_keep (by simp [ht]) ts

theorem joinAfter_append (ended : Bool) (us vs : List Token) :
    joinAfter ended (us ++ vs) = joinAfter ended us ++ joinAfter (operandEnds ended us) vs := by
  induction us generalizing ended with
  | nil => rfl
  | cons t us ih =>
    show joinAfter ended (t :: (us ++ vs)) =
      joinAfter ended (t :: us) ++ joinAfter (operandEnds t.kind.endsOperand us) vs
    by_cases h : ended ∧ t.kind.startsOperand
    · rw [joinAfter, joinAfter, if_pos h, if_pos h, ih]
      rfl
    · rw [joinAfter_keep h, joinAfter_keep h, ih]
      rfl

theorem joinAdjacent_eq (ts : List Token) : joinAdjacent ts = joinAfter false ts := by
  fun_induction joinAdjacent ts with
  | case1 left right rest h ih =>
    rw [ih, joinAfter_false_cons, joinAfter_false_cons, h.1, joinAfter_join h.2]
  | case2 left right rest h ih =>
    rw [ih, joinAfter_false_cons, joinAfter_false_cons, joinAfter_keep h]
  | case3 ts h =>
    cases ts with
    | nil => rfl
    | cons t ts =>
      cases ts with
      | nil => rw [joinAfter_false_cons]; rfl
      | cons u ts => exact absurd rfl (h t u ts)

/-- Going over a list once more finds nothing to write. -/
theorem joinAfter_joinAfter (ended : Bool) (ts : List Token) :
    joinAfter ended (joinAfter ended ts) = joinAfter ended ts := by
  induction ts generalizing ended with
  | nil => rfl
  | cons t ts ih =>
    by_cases h : ended ∧ t.kind.startsOperand
    · rw [joinAfter, if_pos h, joinAfter_of_not_starts rfl]
      show _ :: joinAfter false (t :: joinAfter t.kind.endsOperand ts) = _
      rw [joinAfter_false_cons, ih]
    · rw [joinAfter_keep h, joinAfter_keep h, ih]

/-! ## From the lenient grammar to the strict one -/

/-- Whether phrases of this rank stand behind an operand. -/
def Rank.followsOperand : Rank → Bool
  | .disjuncts | .conjuncts => true
  | .expression | .conjunction | .negation | .primary => false

namespace Derivation

variable {j : Juncture} {r : Rank}

/-- Where a phrase ends, an operand does. -/
theorem operandEnds_tokens (d : Derivation j r) :
    operandEnds r.followsOperand d.tokens = true := by
  induction d with
  | word t h =>
    show t.kind.endsOperand = true
    rw [h]
    rfl
  | group l hl e r hr ih =>
    rw [tokens, ← List.cons_append, operandEnds_append]
    show r.kind.endsOperand = true
    rw [hr]
    rfl
  | plain p ih => exact ih
  | negated n hn p ih =>
    show operandEnds n.kind.endsOperand p.tokens = true
    rw [hn]
    exact ih
  | conjunction n ns ihn ihns => exact operandEnds_append_eq_true ihn ihns
  | noConjunct => rfl
  | and o ho n ns ihn ihns =>
    show operandEnds o.kind.endsOperand (n.tokens ++ ns.tokens) = true
    rw [ho]
    exact operandEnds_append_eq_true ihn ihns
  | adjacent hj n ns ihn ihns =>
    -- a negation is not empty, so what stands in front of it does not matter to its end
    obtain ⟨t, us, h, -⟩ := n.exists_head_of_negation
    have hn : operandEnds true n.tokens = true := by
      rw [h] at ihn ⊢
      exact ihn
    exact operandEnds_append_eq_true hn ihns
  | expression c cs ihc ihcs => exact operandEnds_append_eq_true ihc ihcs
  | noDisjunct => rfl
  | or o ho c cs ihc ihcs =>
    show operandEnds o.kind.endsOperand (c.tokens ++ cs.tokens) = true
    rw [ho]
    exact operandEnds_append_eq_true ihc ihcs

/-- Behind a phrase the pass goes on as behind an operand. -/
theorem joinAfter_tokens_append (d : Derivation j r) (us : List Token) :
    joinAfter r.followsOperand (d.tokens ++ us) =
      joinAfter r.followsOperand d.tokens ++ joinAfter true us := by
  rw [joinAfter_append, d.operandEnds_tokens]

/-- What the lenient grammar derives, the strict grammar derives after the pass. -/
theorem exists_written_of_optional (d : Derivation .optional r) :
    ∃ d' : Derivation .written r,
      d'.tokens = joinAfter r.followsOperand d.tokens ∧ d'.tree = d.tree ∧ d'.depth = d.depth := by
  induction d with
  | word t h => exact ⟨.word t h, (joinAfter_false_cons t []).symm, rfl, rfl⟩
  | group l hl e r hr ih =>
    obtain ⟨e', he, htree, hdepth⟩ := ih
    refine ⟨.group l hl e' r hr, ?_, htree, congrArg (· + 1) hdepth⟩
    -- the pass writes nothing next to the inner side of a parenthesis
    have hclosing : r.kind.startsOperand = false := by rw [hr]; rfl
    have hinside : l.kind.endsOperand = Rank.expression.followsOperand := by rw [hl]; rfl
    rw [tokens, tokens, he]
    show _ = joinAfter false (l :: (e.tokens ++ [r]))
    rw [joinAfter_false_cons, joinAfter_append, joinAfter_of_not_starts hclosing, hinside]
    rfl
  | plain p ih =>
    obtain ⟨p', hp, htree, hdepth⟩ := ih
    exact ⟨.plain p', hp, htree, hdepth⟩
  | negated n hn p ih =>
    obtain ⟨p', hp, htree, hdepth⟩ := ih
    refine ⟨.negated n hn p', ?_, congrArg Expr.not htree, hdepth⟩
    rw [tokens, tokens, hp]
    show _ = joinAfter false (n :: p.tokens)
    rw [joinAfter_false_cons, hn]
    rfl
  | conjunction n ns ihn ihns =>
    obtain ⟨n', hn, hntree, hndepth⟩ := ihn
    obtain ⟨ns', hns, hnstree, hnsdepth⟩ := ihns
    refine ⟨.conjunction n' ns', ?_, ?_, ?_⟩
    · rw [tokens, tokens, hn, hns]
      exact (n.joinAfter_tokens_append ns.tokens).symm
    · rw [tree, tree, hntree, hnstree]
    · rw [depth, depth, hndepth, hnsdepth]
  | noConjunct => exact ⟨.noConjunct, rfl, rfl, rfl⟩
  | and o ho n ns ihn ihns =>
    obtain ⟨n', hn, hntree, hndepth⟩ := ihn
    obtain ⟨ns', hns, hnstree, hnsdepth⟩ := ihns
    refine ⟨.and o ho n' ns', ?_, ?_, ?_⟩
    · rw [tokens, tokens, hn, hns, joinAfter_of_not_starts (by rw [ho]; rfl), ho]
      exact congrArg (o :: ·) (n.joinAfter_tokens_append ns.tokens).symm
    · rw [tree, tree, hntree, hnstree]
    · rw [depth, depth, hndepth, hnsdepth]
  | adjacent hj n ns ihn ihns =>
    obtain ⟨n', hn, hntree, hndepth⟩ := ihn
    obtain ⟨ns', hns, hnstree, hnsdepth⟩ := ihns
    -- here the pass writes an `AND`, in front of the first token of the operand
    obtain ⟨t, us, ht, hk⟩ := n.exists_head_of_negation
    refine ⟨.and t.adjacency rfl n' ns', ?_, ?_, ?_⟩
    · have happ : joinAfter false (n.tokens ++ ns.tokens) =
          joinAfter false n.tokens ++ joinAfter true ns.tokens :=
        n.joinAfter_tokens_append ns.tokens
      show t.adjacency :: (n'.tokens ++ ns'.tokens) = joinAfter true (n.tokens ++ ns.tokens)
      rw [hn, hns]
      show t.adjacency :: (joinAfter false n.tokens ++ joinAfter true ns.tokens) = _
      rw [← happ, ht, List.cons_append, joinAfter_false_cons, joinAfter_join hk]
    · show (fun left => ns'.tree (Expr.and left n'.tree)) = fun left => ns.tree (.and left n.tree)
      rw [hntree, hnstree]
    · show max n'.depth ns'.depth = max n.depth ns.depth
      rw [hndepth, hnsdepth]
  | expression c cs ihc ihcs =>
    obtain ⟨c', hc, hctree, hcdepth⟩ := ihc
    obtain ⟨cs', hcs, hcstree, hcsdepth⟩ := ihcs
    refine ⟨.expression c' cs', ?_, ?_, ?_⟩
    · rw [tokens, tokens, hc, hcs]
      exact (c.joinAfter_tokens_append cs.tokens).symm
    · rw [tree, tree, hctree, hcstree]
    · rw [depth, depth, hcdepth, hcsdepth]
  | noDisjunct => exact ⟨.noDisjunct, rfl, rfl, rfl⟩
  | or o ho c cs ihc ihcs =>
    obtain ⟨c', hc, hctree, hcdepth⟩ := ihc
    obtain ⟨cs', hcs, hcstree, hcsdepth⟩ := ihcs
    refine ⟨.or o ho c' cs', ?_, ?_, ?_⟩
    · rw [tokens, tokens, hc, hcs, joinAfter_of_not_starts (by rw [ho]; rfl), ho]
      exact congrArg (o :: ·) (c.joinAfter_tokens_append cs.tokens).symm
    · rw [tree, tree, hctree, hcstree]
    · rw [depth, depth, hcdepth, hcsdepth]

end Derivation

/-! ## From the strict grammar to the lenient one -/

/-- What the grammar looks at in a token: its kind and, in a word, the spelling. -/
def Token.sense (t : Token) : TokenKind × Text :=
  (t.kind, if t.kind = .word then t.spelling else [])

theorem Token.kind_of_sense {t u : Token} (h : t.sense = u.sense) : u.kind = t.kind :=
  (congrArg Prod.fst h).symm

theorem Token.spelling_of_sense {t u : Token} (h : t.sense = u.sense) (ht : t.kind = .word) :
    u.spelling = t.spelling := by
  have hu := kind_of_sense h
  rw [ht] at hu
  have hs := congrArg Prod.snd h
  rw [sense, sense, if_pos ht, if_pos hu] at hs
  exact hs.symm

/-- The list `us` reads like `ts`, up to some `AND`s that it leaves out. -/
inductive Thins : List Token → List Token → Prop
  | nil : Thins [] []
  | keep {t u ts us} (ht : t.sense = u.sense) (h : Thins ts us) : Thins (t :: ts) (u :: us)
  | drop {t ts us} (ht : t.kind = .and) (h : Thins ts us) : Thins (t :: ts) us

namespace Thins

theorem eq_nil {us : List Token} (h : Thins [] us) : us = [] := by
  cases h
  rfl

theorem exists_cons {t : Token} {ts us : List Token} (h : Thins (t :: ts) us)
    (ht : t.kind ≠ .and) : ∃ u us', us = u :: us' ∧ t.sense = u.sense ∧ Thins ts us' := by
  cases h with
  | keep hs h => exact ⟨_, _, rfl, hs, h⟩
  | drop hand h => exact absurd hand ht

theorem exists_append {ts ts' us : List Token} (h : Thins (ts ++ ts') us) :
    ∃ vs vs', us = vs ++ vs' ∧ Thins ts vs ∧ Thins ts' vs' := by
  induction ts generalizing us with
  | nil => exact ⟨[], us, rfl, .nil, h⟩
  | cons t ts ih =>
    cases h with
    | keep hs h =>
      obtain ⟨vs, vs', rfl, hts, hts'⟩ := ih h
      exact ⟨_ :: vs, vs', rfl, .keep hs hts, hts'⟩
    | drop hand h =>
      obtain ⟨vs, vs', rfl, hts, hts'⟩ := ih h
      exact ⟨vs, vs', rfl, .drop hand hts, hts'⟩

theorem of_map_sense {ts us : List Token} (h : ts.map Token.sense = us.map Token.sense) :
    Thins ts us := by
  induction ts generalizing us with
  | nil =>
    obtain rfl := List.map_eq_nil_iff.1 h.symm
    exact .nil
  | cons t ts ih =>
    obtain ⟨u, us, rfl, hu, hus⟩ := List.map_eq_cons_iff.1 h.symm
    exact .keep hu.symm (ih hus.symm)

end Thins

theorem thins_joinAfter (ended : Bool) (ts : List Token) : Thins (joinAfter ended ts) ts := by
  induction ts generalizing ended with
  | nil => exact .nil
  | cons t ts ih =>
    by_cases h : ended ∧ t.kind.startsOperand
    · rw [joinAfter, if_pos h]
      exact .drop rfl (.keep rfl (ih _))
    · rw [joinAfter_keep h]
      exact .keep rfl (ih _)

namespace Derivation

variable {j : Juncture} {r : Rank}

/-- A phrase stays a phrase when `AND`s are left out of it, and means the same. -/
theorem exists_optional_of_thins (d : Derivation j r) {us : List Token} (h : Thins d.tokens us) :
    ∃ d' : Derivation .optional r, d'.tokens = us ∧ d'.tree = d.tree ∧ d'.depth = d.depth := by
  induction d generalizing us with
  | word t ht =>
    obtain ⟨u, us, rfl, hs, hnil⟩ := h.exists_cons (by simp [ht])
    obtain rfl := hnil.eq_nil
    refine ⟨.word u ((Token.kind_of_sense hs).trans ht), rfl, ?_, rfl⟩
    exact congrArg Expr.word (Token.spelling_of_sense hs ht)
  | group l hl e r hr ih =>
    obtain ⟨l', us, rfl, hl', hin⟩ := h.exists_cons (by simp [hl])
    obtain ⟨vs, rs, rfl, he, hclose⟩ := hin.exists_append
    obtain ⟨r', us, rfl, hr', hnil⟩ := hclose.exists_cons (by simp [hr])
    obtain rfl := hnil.eq_nil
    obtain ⟨e', rfl, htree, hdepth⟩ := ih he
    have hl := (Token.kind_of_sense hl').trans hl
    have hr := (Token.kind_of_sense hr').trans hr
    exact ⟨.group l' hl e' r' hr, rfl, htree, congrArg (· + 1) hdepth⟩
  | plain p ih =>
    obtain ⟨p', rfl, htree, hdepth⟩ := ih h
    exact ⟨.plain p', rfl, htree, hdepth⟩
  | negated n hn p ih =>
    obtain ⟨n', us, rfl, hs, hp⟩ := h.exists_cons (by simp [hn])
    obtain ⟨p', rfl, htree, hdepth⟩ := ih hp
    exact ⟨.negated n' ((Token.kind_of_sense hs).trans hn) p', rfl, congrArg Expr.not htree, hdepth⟩
  | conjunction n ns ihn ihns =>
    obtain ⟨vs, vs', rfl, hn, hns⟩ := h.exists_append
    obtain ⟨n', rfl, hntree, hndepth⟩ := ihn hn
    obtain ⟨ns', rfl, hnstree, hnsdepth⟩ := ihns hns
    exact ⟨.conjunction n' ns', rfl, by rw [tree, tree, hntree, hnstree],
      by rw [depth, depth, hndepth, hnsdepth]⟩
  | noConjunct =>
    obtain rfl := h.eq_nil
    exact ⟨.noConjunct, rfl, rfl, rfl⟩
  | and o ho n ns ihn ihns =>
    rw [tokens] at h
    cases h with
    | keep hs h =>
      obtain ⟨vs, vs', rfl, hn, hns⟩ := h.exists_append
      obtain ⟨n', rfl, hntree, hndepth⟩ := ihn hn
      obtain ⟨ns', rfl, hnstree, hnsdepth⟩ := ihns hns
      exact ⟨.and _ ((Token.kind_of_sense hs).trans ho) n' ns', rfl,
        by rw [tree, tree, hntree, hnstree], by rw [depth, depth, hndepth, hnsdepth]⟩
    | drop hand h =>
      -- without the `AND` its operands are adjacent, and the tree is the same
      obtain ⟨vs, vs', rfl, hn, hns⟩ := h.exists_append
      obtain ⟨n', rfl, hntree, hndepth⟩ := ihn hn
      obtain ⟨ns', rfl, hnstree, hnsdepth⟩ := ihns hns
      exact ⟨.adjacent rfl n' ns', rfl, by simp only [tree, hntree, hnstree],
        by simp only [depth, hndepth, hnsdepth]⟩
  | adjacent hj n ns ihn ihns =>
    obtain ⟨vs, vs', rfl, hn, hns⟩ := h.exists_append
    obtain ⟨n', rfl, hntree, hndepth⟩ := ihn hn
    obtain ⟨ns', rfl, hnstree, hnsdepth⟩ := ihns hns
    exact ⟨.adjacent rfl n' ns', rfl, by rw [tree, tree, hntree, hnstree],
      by rw [depth, depth, hndepth, hnsdepth]⟩
  | expression c cs ihc ihcs =>
    obtain ⟨vs, vs', rfl, hc, hcs⟩ := h.exists_append
    obtain ⟨c', rfl, hctree, hcdepth⟩ := ihc hc
    obtain ⟨cs', rfl, hcstree, hcsdepth⟩ := ihcs hcs
    exact ⟨.expression c' cs', rfl, by rw [tree, tree, hctree, hcstree],
      by rw [depth, depth, hcdepth, hcsdepth]⟩
  | noDisjunct =>
    obtain rfl := h.eq_nil
    exact ⟨.noDisjunct, rfl, rfl, rfl⟩
  | or o ho c cs ihc ihcs =>
    obtain ⟨o', us, rfl, hs, hin⟩ := h.exists_cons (by simp [ho])
    obtain ⟨vs, vs', rfl, hc, hcs⟩ := hin.exists_append
    obtain ⟨c', rfl, hctree, hcdepth⟩ := ihc hc
    obtain ⟨cs', rfl, hcstree, hcsdepth⟩ := ihcs hcs
    exact ⟨.or o' ((Token.kind_of_sense hs).trans ho) c' cs', rfl,
      by rw [tree, tree, hctree, hcstree], by rw [depth, depth, hcdepth, hcsdepth]⟩

/-- The pass undoes the leaving out of `AND`s, for the tree and the depth of a derivation. -/
theorem exists_written_joinAdjacent_iff {ts : List Token} {t : Tree} {k : Nat} :
    (∃ d : Derivation .written .expression,
        d.tokens = joinAdjacent ts ∧ d.tree = t ∧ d.depth = k) ↔
      ∃ d : Derivation .optional .expression, d.tokens = ts ∧ d.tree = t ∧ d.depth = k := by
  rw [joinAdjacent_eq]
  constructor
  · rintro ⟨d, htokens, rfl, rfl⟩
    exact d.exists_optional_of_thins (htokens ▸ thins_joinAfter false ts)
  · rintro ⟨d, rfl, rfl, rfl⟩
    exact d.exists_written_of_optional

end Derivation

/-- After the pass, the parser accepts what the lenient grammar derives within its depth. -/
theorem parseTokens_joinAdjacent_iff {ts : List Token} {limit : Int} {t : Tree} :
    parseTokens (joinAdjacent ts) limit = .ok t ↔
      ∃ d : Derivation .optional .expression, d.tokens = ts ∧ d.tree = t ∧
        d.depth ≤ limit.toNat := by
  rw [parseTokens_iff_derivation]
  constructor
  · rintro ⟨d, htokens, htree, hd⟩
    obtain ⟨d', htokens', htree', hdepth⟩ :=
      Derivation.exists_written_joinAdjacent_iff.1 ⟨d, htokens, htree, rfl⟩
    exact ⟨d', htokens', htree', hdepth ▸ hd⟩
  · rintro ⟨d, htokens, htree, hd⟩
    obtain ⟨d', htokens', htree', hdepth⟩ :=
      Derivation.exists_written_joinAdjacent_iff.2 ⟨d, htokens, htree, rfl⟩
    exact ⟨d', htokens', htree', hdepth ▸ hd⟩

/-! ## Leaving tokens out -/

/-- The list `us` is what is left of `ts`, behind the token `left`, when some tokens are taken out.
Of each of them `p` holds, with its neighbours in `ts`. -/
inductive Omits (p : Option Token → Token → Option Token → Prop) :
    Option Token → List Token → List Token → Prop
  | nil {left} : Omits p left [] []
  | keep {left t ts us} (h : Omits p (some t) ts us) : Omits p left (t :: ts) (t :: us)
  | drop {left t ts us} (hp : p left t ts.head?) (h : Omits p (some t) ts us) :
      Omits p left (t :: ts) us

/-- Whether an operand ends with the token to the left, if there is one. -/
def endsOperand (left : Option Token) : Bool := left.any fun t => t.kind.endsOperand

/-- An `AND` that stands directly between two operands. -/
def Redundant (left : Option Token) (t : Token) (right : Option Token) : Prop :=
  t.kind = .and ∧ endsOperand left ∧ right.any fun u => u.kind.startsOperand

/-- An `AND` between two operands, as the pass writes it. -/
def Added (left : Option Token) (t : Token) (right : Option Token) : Prop :=
  Redundant left t right ∧ ∃ u, right = some u ∧ t = u.adjacency

theorem omits_joinAfter (left : Option Token) (ts : List Token) :
    Omits Added left (joinAfter (endsOperand left) ts) ts := by
  induction ts generalizing left with
  | nil => exact .nil
  | cons t ts ih =>
    by_cases h : endsOperand left ∧ t.kind.startsOperand
    · rw [joinAfter, if_pos h]
      exact .drop ⟨⟨rfl, h⟩, t, rfl, rfl⟩ (.keep (ih (some t)))
    · rw [joinAfter_keep h]
      exact .keep (ih (some t))

/-- The pass writes every `AND` between two operands that has been left out. -/
theorem map_sense_joinAfter_of_omits {left : Option Token} {ts us : List Token}
    (h : Omits Redundant left ts us) :
    (joinAfter (endsOperand left) ts).map Token.sense =
      (joinAfter (endsOperand left) us).map Token.sense := by
  induction h with
  | nil => rfl
  | @keep left t ts us h ih =>
    have ih : (joinAfter t.kind.endsOperand ts).map Token.sense =
        (joinAfter t.kind.endsOperand us).map Token.sense := ih
    by_cases hjoin : endsOperand left ∧ t.kind.startsOperand
    · rw [joinAfter, joinAfter, if_pos hjoin, if_pos hjoin]
      simp only [List.map_cons, ih]
    · rw [joinAfter_keep hjoin, joinAfter_keep hjoin]
      simp only [List.map_cons, ih]
  | @drop left t ts us hp h ih =>
    obtain ⟨hand, hleft, hright⟩ := hp
    have hends : endsOperand (some t) = false := by simp [endsOperand, hand, TokenKind.endsOperand]
    cases h with
    | nil => cases hright
    | @keep _ u ts us h =>
      have hu : u.kind.startsOperand := hright
      rw [hends, joinAfter_false_cons, joinAfter_false_cons] at ih
      rw [joinAfter_of_not_starts (by rw [hand]; rfl), hand, hleft, joinAfter_join hu]
      show _ :: (joinAfter false (u :: ts)).map Token.sense = _
      rw [joinAfter_false_cons, ih]
      simp [Token.sense, Token.adjacency, hand]
    | drop hp h =>
      -- the token to its right starts an operand, so it is no `AND` and stays
      have hu : TokenKind.startsOperand _ := hright
      rw [hp.1] at hu
      cases hu

theorem parseTokens_joinAdjacent_of_map_sense {ts us : List Token} {limit : Int} {t : Tree}
    (h : (joinAdjacent ts).map Token.sense = (joinAdjacent us).map Token.sense)
    (hparse : parseTokens (joinAdjacent ts) limit = .ok t) :
    parseTokens (joinAdjacent us) limit = .ok t := by
  obtain ⟨d, htokens, rfl, hd⟩ := parseTokens_iff_derivation.1 hparse
  rw [← htokens] at h
  obtain ⟨d', htokens', htree, hdepth⟩ := d.exists_optional_of_thins (.of_map_sense h)
  have hagain : joinAdjacent (joinAdjacent us) = joinAdjacent us := by
    rw [joinAdjacent_eq us, joinAdjacent_eq, joinAfter_joinAfter]
  rw [← hagain, parseTokens_joinAdjacent_iff]
  exact ⟨d', htokens', htree, hdepth ▸ hd⟩

end Headline.Query
