import Headline.Proofs.Composition

/-!
# The words of a query

A tree has its words from the tokens that it is read from, in their order (`words_of_parse`), and a
tree without a negation accepts every text that all of them occur in
(`accepts_of_negationFree`).
-/

namespace Headline.Query

namespace Expr

variable {α : Type}

/-- The words of an expression, from left to right. -/
def words : Expr α → List Text
  | word w => [w]
  | and left right | or left right => left.words ++ right.words
  | not e => e.words
  | foreign _ => []

/-- Whether nothing in the expression is negated. -/
def negationFree : Expr α → Bool
  | word _ | foreign _ => true
  | and left right | or left right => left.negationFree && right.negationFree
  | not _ => false

end Expr

/-- The words among tokens, from left to right. -/
def wordsOf (ts : List Token) : List Text :=
  ts.filterMap fun t => if t.kind = .word then some t.spelling else none

theorem wordsOf_append (ts us : List Token) : wordsOf (ts ++ us) = wordsOf ts ++ wordsOf us :=
  List.filterMap_append

theorem wordsOf_cons_word {t : Token} (ht : t.kind = .word) (ts : List Token) :
    wordsOf (t :: ts) = t.spelling :: wordsOf ts := by
  rw [wordsOf, List.filterMap_cons, if_pos ht]
  rfl

theorem wordsOf_cons_of_ne {t : Token} (ht : t.kind ≠ .word) (ts : List Token) :
    wordsOf (t :: ts) = wordsOf ts := by
  rw [wordsOf, List.filterMap_cons, if_neg ht]
  rfl

theorem exists_token_of_mem_wordsOf {ts : List Token} {w : Text} (h : w ∈ wordsOf ts) :
    ∃ t ∈ ts, t.kind = .word ∧ t.spelling = w := by
  obtain ⟨t, ht, hw⟩ := List.mem_filterMap.1 h
  by_cases hk : t.kind = .word
  · rw [if_pos hk] at hw
    exact ⟨t, ht, hk, Option.some.inj hw⟩
  · rw [if_neg hk] at hw
    cases hw

/-! ## The words of a derivation -/

/-- A phrase of the rank brings these words into a tree. -/
def BringsWords (ws : List Text) : (r : Rank) → r.Meaning → Prop
  | .disjuncts, f | .conjuncts, f => ∀ left, (f left).words = left.words ++ ws
  | .expression, t | .conjunction, t | .negation, t | .primary, t => t.words = ws

namespace Derivation

variable {j : Juncture} {r : Rank}

theorem bringsWords_tree (d : Derivation j r) : BringsWords (wordsOf d.tokens) r d.tree := by
  induction d with
  | word t h => exact (wordsOf_cons_word h []).symm
  | group l hl e r hr ih =>
    show e.tree.words = wordsOf (l :: (e.tokens ++ [r]))
    rw [wordsOf_cons_of_ne (by simp [hl]), wordsOf_append, wordsOf_cons_of_ne (by simp [hr]),
      show wordsOf [] = [] from rfl, List.append_nil]
    exact ih
  | plain p ih => exact ih
  | negated n hn p ih =>
    show p.tree.words = wordsOf (n :: p.tokens)
    rw [wordsOf_cons_of_ne (by simp [hn])]
    exact ih
  | conjunction n ns ihn ihns =>
    show (ns.tree n.tree).words = wordsOf (n.tokens ++ ns.tokens)
    rw [wordsOf_append, ihns n.tree, show n.tree.words = _ from ihn]
  | noConjunct => exact fun left => (List.append_nil _).symm
  | and o ho n ns ihn ihns =>
    intro left
    show (ns.tree (.and left n.tree)).words = left.words ++ wordsOf (o :: (n.tokens ++ ns.tokens))
    rw [wordsOf_cons_of_ne (by simp [ho]), wordsOf_append, ihns, Expr.words,
      show n.tree.words = _ from ihn, List.append_assoc]
  | adjacent hj n ns ihn ihns =>
    intro left
    show (ns.tree (.and left n.tree)).words = left.words ++ wordsOf (n.tokens ++ ns.tokens)
    rw [wordsOf_append, ihns, Expr.words, show n.tree.words = _ from ihn, List.append_assoc]
  | expression c cs ihc ihcs =>
    show (cs.tree c.tree).words = wordsOf (c.tokens ++ cs.tokens)
    rw [wordsOf_append, ihcs c.tree, show c.tree.words = _ from ihc]
  | noDisjunct => exact fun left => (List.append_nil _).symm
  | or o ho c cs ihc ihcs =>
    intro left
    show (cs.tree (.or left c.tree)).words = left.words ++ wordsOf (o :: (c.tokens ++ cs.tokens))
    rw [wordsOf_cons_of_ne (by simp [ho]), wordsOf_append, ihcs, Expr.words,
      show c.tree.words = _ from ihc, List.append_assoc]

end Derivation

/-- The words of the tree of a query are those of its tokens. -/
theorem words_of_parse {q : Text} {limit : Int} {t : Tree} (h : parse q limit = .ok t) :
    ∃ ts, Scans limit none 0 [] q ts ∧ t.words = wordsOf ts := by
  obtain ⟨d, hscan, rfl⟩ := parse_iff_derivation.1 h
  exact ⟨d.tokens, hscan, d.bringsWords_tree⟩

/-- Every word of the tree of a query stands in the query, blanks aside. -/
theorem infix_of_mem_words {q : Text} {limit : Int} {t : Tree} (h : parse q limit = .ok t)
    {w : Text} (hw : w ∈ t.words) : w <:+: Text.dropBlanks q := by
  obtain ⟨ts, hscan, hwords⟩ := words_of_parse h
  rw [hwords] at hw
  obtain ⟨token, htoken, -, rfl⟩ := exists_token_of_mem_wordsOf hw
  rw [← (tiles_of_scans hscan).flatMap_spelling, List.flatMap_def]
  exact List.infix_of_mem_flatten (List.mem_map_of_mem htoken)

/-! ## Trees without negation -/

/-- A tree without a negation accepts what all of its words occur in. -/
theorem accepts_of_negationFree {t : Tree} (ht : t.negationFree) {text : Text}
    (h : ∀ w ∈ t.words, w <:+: text) : t.accepts text := by
  induction t with
  | word w =>
    have hw : w <:+: text := h w (List.mem_singleton.2 rfl)
    apply Tree.accepts_of_evaluate text
    rw [Expr.evaluate, Text.occursIn_iff.2 hw]
  | and left right ihl ihr =>
    rw [Expr.negationFree, Bool.and_eq_true] at ht
    rw [Expr.words, List.forall_mem_append] at h
    rw [Tree.accepts_and, ihl ht.1 h.1, ihr ht.2 h.2]
    rfl
  | or left right ihl ihr =>
    rw [Expr.negationFree, Bool.and_eq_true] at ht
    rw [Expr.words, List.forall_mem_append] at h
    rw [Tree.accepts_or, ihl ht.1 h.1]
    rfl
  | not e ih => cases ht
  | foreign a => cases a

end Headline.Query
