import Headline.Proofs.Readability

/-!
# Descriptions as queries

The description of a tree without a negation is a query again, and it is read as the same tree:
`parse_description`. Its words have to be read back as words where they stand now.

`Yields` says of a text what it is lexed as, wherever it stands. Along the chains of a tree, its
description yields the tokens of a derivation of the tree (`Tree.isRead_of_readsBack`).
-/

namespace Headline.Query

/-! ## Texts and their tokens -/

/-- In front of what cannot continue a word, the text is lexed as these tokens, if there are levels
enough for its groups, all of which it closes. -/
structure Yields (s : Text) (ts : List Token) : Prop where
  height : textBrackets.height s = 0
  lexes : ∀ (limit : Int) previous (depth : Nat) rest us, textBrackets.Within (limit - depth) s →
    EndsWord rest → (∀ previous, Lexes limit previous depth rest us) →
    Lexes limit previous depth (s ++ rest) (ts ++ us)

namespace Yields

variable {s s' : Text} {ts ts' : List Token}

theorem nil : Yields [] [] := ⟨rfl, fun _ _ _ _ _ _ _ h => h _⟩

/-- A text in front of one that continues no word. -/
theorem append (h : Yields s ts) (h' : Yields s' ts')
    (hends : ∀ rest, EndsWord rest → EndsWord (s' ++ rest)) : Yields (s ++ s') (ts ++ ts') := by
  refine ⟨by rw [Brackets.height_append, h.height, h'.height]; rfl, ?_⟩
  intro limit previous depth rest us hwithin hrest hus
  rw [Brackets.within_append, h.height, Int.sub_zero] at hwithin
  rw [List.append_assoc, List.append_assoc]
  exact h.lexes _ _ _ _ _ hwithin.1 (hends rest hrest)
    fun previous => h'.lexes _ _ _ _ _ hwithin.2 hrest hus

end Yields

/-- A word that is read as a word wherever it stands: it spells no operator, and it starts with no
`-`, unless with two of them. -/
def ReadsBack (w : Text) : Prop :=
  IsWord w ∧ TokenKind.ofWord w = .word ∧ (w[0]? = some '-' → w[1]? = some '-')

theorem ReadsBack.yields {w : Text} (hw : ReadsBack w) : Yields w [⟨.word, w, 0⟩] := by
  obtain ⟨hword, hkind, hhyphen⟩ := hw
  refine ⟨height_text_of_other fun c hc => (hword.2 c hc).2, ?_⟩
  obtain ⟨c, run, rfl, hc, hrun⟩ := hword.exists_cons
  intro limit previous depth rest us _ hrest hus
  refine lexes_word c run hkind.symm rfl hc hrun hrest ?_ (hus _)
  rintro rfl -
  have hnext := hhyphen rfl
  rw [List.getElem?_cons_succ, ← List.head?_eq_getElem?] at hnext
  rw [List.head?_append, hnext]
  rfl

/-- The tokens around a group. -/
def openingToken : Token := ⟨.opening, ['('], 0⟩

def closingToken : Token := ⟨.closing, [')'], 0⟩

theorem Yields.group {s : Text} {ts : List Token} (h : Yields s ts) :
    Yields ('(' :: (s ++ [')'])) (openingToken :: (ts ++ [closingToken])) := by
  have hopen : textBrackets.height ['('] = 1 := rfl
  have hclose : textBrackets.height [')'] = -1 := rfl
  refine ⟨?_, ?_⟩
  · rw [Brackets.height_cons, Brackets.height_append, h.height, hopen, hclose]
    rfl
  · intro limit previous depth rest us hwithin hrest hus
    rw [Brackets.within_cons, Brackets.within_append, hopen] at hwithin
    obtain ⟨hlimit, hinside, -⟩ := hwithin
    have hlevel : (depth : Int) + 1 ≤ limit := by
      have := hlimit rfl
      omega
    -- the group is closed whatever stands in front of its last parenthesis
    have hclosed : ∀ previous,
        Lexes limit previous (depth + 1) (')' :: rest) (closingToken :: us) :=
      fun _ => lexes_closing rfl (hus _)
    have hs : Lexes limit (some '(') (depth + 1) (s ++ ')' :: rest) (ts ++ closingToken :: us) := by
      refine h.lexes _ _ _ _ _ (hinside.mono ?_) (Tree.endsWord_closing rest) hclosed
      push_cast
      omega
    simpa using lexes_opening (t := openingToken) rfl hlevel hs

namespace Connective

/-- The token that a connective is read as. -/
def token : Connective → Token
  | and => ⟨.and, "AND".toList, 0⟩
  | or => ⟨.or, "OR".toList, 0⟩

theorem yields_separator_append (c : Connective) {s : Text} {ts : List Token} (h : Yields s ts) :
    Yields (c.separator ++ s) (c.token :: ts) := by
  have hnone : ∀ d ∈ c.separator, d ≠ '(' ∧ d ≠ ')' := by
    cases c <;> simp [separator, name]
  refine ⟨by rw [Brackets.height_append, height_text_of_other hnone, h.height]; rfl, ?_⟩
  intro limit previous depth rest us hwithin hrest hus
  have hs := h.lexes limit (some ' ') depth rest us (within_of_other_append hnone hwithin) hrest hus
  cases c with
  | and => exact lexes_spaced_word 'A' ['N', 'D'] (by decide) rfl rfl (by decide) hs
  | or => exact lexes_spaced_word 'O' ['R'] (by decide) rfl rfl (by decide) hs

/-- The tokens continue a chain whose left part has been read, and make of it what `f` does. -/
def Continues (c : Connective) (us : List Token) (f : Tree → Tree) : Prop :=
  match c with
  | and => ∃ ns : Derivation .optional .conjuncts, ns.tokens = us ∧ ns.tree = f
  | or => ∃ cs : Derivation .optional .disjuncts, cs.tokens = us ∧ cs.tree = f

theorem continues_nil (c : Connective) : c.Continues [] fun left => left := by
  cases c with
  | and => exact ⟨.noConjunct, rfl, rfl⟩
  | or => exact ⟨.noDisjunct, rfl, rfl⟩

theorem Continues.cons {c : Connective} {us : List Token} {f : Tree → Tree}
    (h : c.Continues us f) (p : Derivation .optional .primary) :
    c.Continues (c.token :: (p.tokens ++ us)) fun left => f (c.join left p.tree) := by
  cases c with
  | and =>
    obtain ⟨ns, rfl, rfl⟩ := h
    exact ⟨.and (token .and) rfl (.plain p) ns, rfl, rfl⟩
  | or =>
    obtain ⟨cs, rfl, rfl⟩ := h
    refine ⟨.or (token .or) rfl (.conjunction (.plain p) .noConjunct) cs, ?_, rfl⟩
    simp [Derivation.tokens, token]

/-- A chain in parentheses is an operand. -/
theorem Continues.exists_primary {c : Connective} {us : List Token} {f : Tree → Tree}
    (h : c.Continues us f) (p : Derivation .optional .primary) :
    ∃ p' : Derivation .optional .primary,
      p'.tokens = openingToken :: ((p.tokens ++ us) ++ [closingToken]) ∧ p'.tree = f p.tree := by
  -- in parentheses every expression is a primary
  have group : ∀ e : Derivation .optional .expression, e.tokens = p.tokens ++ us →
      e.tree = f p.tree → ∃ p' : Derivation .optional .primary,
        p'.tokens = openingToken :: ((p.tokens ++ us) ++ [closingToken]) ∧ p'.tree = f p.tree := by
    intro e htokens htree
    exact ⟨.group openingToken rfl e closingToken rfl, by simp [Derivation.tokens, htokens], htree⟩
  cases c with
  | and =>
    obtain ⟨ns, rfl, rfl⟩ := h
    exact group (.expression (.conjunction (.plain p) ns) .noDisjunct) (List.append_nil _) rfl
  | or =>
    obtain ⟨cs, rfl, rfl⟩ := h
    refine group (.expression (.conjunction (.plain p) .noConjunct) cs) ?_ rfl
    simp [Derivation.tokens]

end Connective

/-! ## Trees that are read back -/

/-- Nothing is negated, and every word is read back. -/
def Expr.ReadsBack {α : Type} (e : Expr α) : Prop :=
  e.negationFree ∧ ∀ w ∈ e.words, Query.ReadsBack w

theorem Expr.readsBack_operands_iff {α : Type} {c : Connective} {left right : Expr α} :
    (∀ x ∈ c.operands left right, x.ReadsBack) ↔ (c.join left right).ReadsBack := by
  refine Connective.forall_mem_operands_iff (fun left right => ?_) left right
  have hjoin : ((c.join left right).negationFree ∧
        ∀ w ∈ (c.join left right).words, Query.ReadsBack w) ↔
      ((left.negationFree && right.negationFree) ∧
        ∀ w ∈ left.words ++ right.words, Query.ReadsBack w) := by
    cases c <;> rfl
  rw [ReadsBack, hjoin, Bool.and_eq_true, List.forall_mem_append, ReadsBack, ReadsBack]
  exact and_and_and_comm

namespace Tree

/-- The description is a word or a group of the grammar that stands for the tree. -/
def IsRead (t : Tree) : Prop :=
  ∃ p : Derivation .optional .primary, p.tree = t ∧ Yields t.description p.tokens

/-- What follows the first operand of a chain. -/
theorem exists_continues (c : Connective) {more : List Tree} (h : ∀ x ∈ more, x.IsRead) :
    ∃ us f, c.Continues us f ∧ (∀ left, f left = more.foldl c.join left) ∧
      Yields (more.flatMap fun x => c.separator ++ x.description) us := by
  induction more with
  | nil => exact ⟨[], _, c.continues_nil, fun _ => rfl, .nil⟩
  | cons x more ih =>
    obtain ⟨⟨p, hp, hyields⟩, hmore⟩ := List.forall_mem_cons.1 h
    obtain ⟨us, f, hcontinues, hf, hus⟩ := ih hmore
    refine ⟨_, _, hcontinues.cons p, fun left => ?_, ?_⟩
    · rw [hf, hp]
      rfl
    · rw [List.flatMap_cons]
      exact (c.yields_separator_append hyields).append hus fun _ => endsWord_more c more

theorem isRead_of_readsBack {t : Tree} (h : t.ReadsBack) : t.IsRead := by
  induction t using Expr.chain_induction with
  | word w =>
    have hw : ReadsBack w := h.2 w (List.mem_singleton.2 rfl)
    refine ⟨.word ⟨.word, w, 0⟩ rfl, rfl, ?_⟩
    rw [description_word]
    exact hw.yields
  | chain c left right ih =>
    obtain ⟨first, more, -, hjoin, hoperands⟩ := c.exists_operands left right
    have hread : ∀ x ∈ first :: more, IsRead x := by
      rw [← Expr.readsBack_operands_iff] at h
      rw [← hoperands]
      exact fun x hx => ih x hx (h x hx)
    -- the first operand is read back, and the others go on from it
    obtain ⟨⟨p, rfl, hyields⟩, hmore⟩ := List.forall_mem_cons.1 hread
    obtain ⟨us, f, hcontinues, hf, hus⟩ := exists_continues c hmore
    obtain ⟨p', htokens, htree⟩ := hcontinues.exists_primary p
    refine ⟨p', by rw [htree, hf, hjoin], ?_⟩
    have hdescription := description_join_append hoperands []
    rw [List.append_nil] at hdescription
    rw [hdescription, htokens, ← List.append_assoc]
    exact (hyields.append hus fun _ => endsWord_more c more).group
  | not t ih => cases h.1
  | foreign a => cases a

end Tree

/-- The description of the tree of a query is a query for the same tree, under every limit that its
parentheses keep, when nothing in the tree is negated and none of its words starts with a single
`-`. -/
theorem parse_description {q : Text} {limit limit' : Int} {t : Tree} (h : parse q limit = .ok t)
    (hnegation : t.negationFree) (hhyphen : ∀ w ∈ t.words, w[0]? = some '-' → w[1]? = some '-')
    (hwithin : textBrackets.Within limit' t.description) : parse t.description limit' = .ok t := by
  have hread : t.ReadsBack := by
    refine ⟨hnegation, fun w hw => ?_⟩
    obtain ⟨hword, hkind⟩ := isWord_of_mem_words h hw
    exact ⟨hword, hkind, hhyphen w hw⟩
  obtain ⟨p, rfl, hyields⟩ := Tree.isRead_of_readsBack hread
  have hlexes : Lexes limit' none 0 (p.tree.description ++ []) (p.tokens ++ []) := by
    refine hyields.lexes limit' none 0 [] [] ?_ endsWord_nil fun _ => lexes_nil
    simpa using hwithin
  refine parse_of_lexes_conjunction (c := .conjunction (.plain p) .noConjunct) ?_
  rw [List.append_nil] at hlexes
  exact hlexes

/-- Chains inside one another, and words that start with two hyphens. -/
theorem parse_description_of_hyphens :
    ∃ t, parse "--a b OR c (d oR --)".toList 1 = .ok t ∧
      t.description = "((--a AND b) OR (c AND (d OR --)))".toList ∧
      parse t.description 3 = .ok t := by
  let word (s : String) : Tree := .word s.toList
  let t : Tree := .or (.and (word "--a") (word "b")) (.and (word "c") (.or (word "d") (word "--")))
  have hparse : parse "--a b OR c (d oR --)".toList 1 = .ok t := by decide +kernel
  have hdescription : t.description = "((--a AND b) OR (c AND (d OR --)))".toList := by
    decide +kernel
  have hwithin : textBrackets.Within 3 t.description := by
    rw [hdescription]
    simp [Brackets.within_cons, Brackets.height, textBrackets]
  have hhyphen : ∀ w ∈ t.words, w[0]? = some '-' → w[1]? = some '-' := by
    simp [t, word, Expr.words]
  exact ⟨t, hparse, hdescription, parse_description hparse rfl hhyphen hwithin⟩

end Headline.Query
