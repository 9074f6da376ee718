import Headline.Proofs.Grammar
import Headline.Query.Parser

/-!
# The parser recognizes the grammar

Recursive descent over a token list accepts exactly what the strict grammar derives, with the tree
of the derivation.

* `Sound`: what a reader takes from the front of a list is a phrase of the grammar (`Derives`),
  shown for each reader from the readers that it calls.
* `reads`: by induction over a derivation, its reader takes it in front of anything that cannot
  continue it.
* `parseTokens_iff_derivation` puts the two together; the levels of groups that the readers have
  left are the depth that the derivation may have.
-/

namespace Headline.Query

namespace Parser

/-! ## Readers by level -/

/-- The reader of what stands inside a group, with so many levels of groups left. -/
def inner (limit : Int) : (levels : Nat) → Option OperandReader
  | 0 => none
  | levels + 1 => some (expression limit levels)

/-- The reader of words and groups. -/
def primaryAt (limit : Int) (levels : Nat) : OperandReader := primary limit (inner limit levels)

/-- The reader of operands of a conjunction. -/
def negationAt (limit : Int) (levels : Nat) : OperandReader := negation (primaryAt limit levels)

/-- The reader of conjunctions. -/
def conjunctionAt (limit : Int) (levels : Nat) : OperandReader :=
  chain .and .and (negationAt limit levels)

theorem expression_eq (limit : Int) (levels : Nat) :
    expression limit levels = chain .or .or (conjunctionAt limit levels) := by
  cases levels <;> rfl

/-! ## Soundness -/

/-- The grammar derives `us` with the meaning `m`, its groups at most `levels` deep. -/
def Derives (levels : Nat) (r : Rank) (us : List Token) (m : r.Meaning) : Prop :=
  ∃ d : Derivation .written r, d.tokens = us ∧ d.tree = m ∧ d.depth ≤ levels

/-- What `read` takes from the front of a list is a phrase. -/
def Sound (phrase : List Token → Tree → Prop)
    (read : List Token → Except Fault (Tree × List Token)) : Prop :=
  ∀ ts t rest, read ts = .ok (t, rest) → ∃ us, phrase us t ∧ us ++ rest = ts

section Chains

variable {operator : TokenKind} {join : Tree → Tree → Tree} {operand : OperandReader}
  {phrase chained : List Token → Tree → Prop} (repeated : List Token → (Tree → Tree) → Prop)

/-- A chain takes operands that each stand after the operator. -/
theorem exists_repeated_of_chainFrom (hop : ∀ owner, Sound phrase (operand owner).read)
    (hnil : repeated [] fun left => left)
    (hcons : ∀ o us t vs f, o.kind = operator → phrase us t → repeated vs f →
      repeated (o :: (us ++ vs)) fun left => f (join left t))
    {left e : Tree} {ts rest : List Token}
    (h : chainFrom operator join operand left ts = .ok (e, rest)) :
    ∃ us f, repeated us f ∧ f left = e ∧ us ++ rest = ts := by
  fun_induction chainFrom operator join operand left ts with
  | case1 left =>
    cases h
    exact ⟨[], _, hnil, rfl, rfl⟩
  | case2 => cases h
  | case3 left o ts ho t rest' hr ih =>
    obtain ⟨us, hus, rfl⟩ := hop _ _ _ _ hr
    obtain ⟨vs, f, hvs, rfl, rfl⟩ := ih h
    exact ⟨o :: (us ++ vs), _, hcons o us t vs f ho hus hvs, rfl, by simp⟩
  | case4 left o ts ho =>
    cases h
    exact ⟨[], _, hnil, rfl, rfl⟩

theorem sound_chain (hop : ∀ owner, Sound phrase (operand owner).read)
    (hnil : repeated [] fun left => left)
    (hcons : ∀ o us t vs f, o.kind = operator → phrase us t → repeated vs f →
      repeated (o :: (us ++ vs)) fun left => f (join left t))
    (hchain : ∀ us t vs f, phrase us t → repeated vs f → chained (us ++ vs) (f t))
    (owner : Option Token) : Sound chained (chain operator join operand owner).read := by
  intro ts e rest h
  change readChain operator join operand owner ts = .ok (e, rest) at h
  unfold readChain at h
  split at h
  · cases h
  · next t rest' hr =>
    obtain ⟨us, hus, rfl⟩ := hop _ _ _ _ hr
    obtain ⟨vs, f, hvs, rfl, rfl⟩ := exists_repeated_of_chainFrom repeated hop hnil hcons h
    exact ⟨us ++ vs, hchain us t vs f hus hvs, by simp⟩

end Chains

/-- The reader inside groups is sound, one level further down. -/
def InnerSound (limit : Int) (levels : Nat) : Prop :=
  ∀ k, k + 1 = levels → ∀ owner, Sound (Derives k .expression) (expression limit k owner).read

section Levels

variable {limit : Int} {levels : Nat}

/-- A group is sound when its inside is, one level further down. -/
theorem exists_group_of_group (hin : InnerSound limit levels) {l : Token}
    (hl : l.kind = .opening) {ts rest : List Token} {t : Tree}
    (h : group limit (inner limit levels) l ts = .ok (t, rest)) :
    ∃ us, Derives levels .primary (l :: us) t ∧ us ++ rest = ts := by
  cases levels with
  | zero => cases h
  | succ k =>
    simp only [inner, group] at h
    split at h
    · cases h
    · split at h
      · cases h
      · next e r rest' hr =>
        split at h
        · next hclose =>
          cases h
          obtain ⟨us, ⟨d, rfl, rfl, hd⟩, rfl⟩ := hin k rfl _ _ _ _ hr
          refine ⟨d.tokens ++ [r], ⟨.group l hl d r hclose, rfl, rfl, ?_⟩, by simp⟩
          exact Nat.succ_le_succ hd
        · cases h
      · cases h

theorem sound_primaryAt (hin : InnerSound limit levels) (owner : Option Token) :
    Sound (Derives levels .primary) (primaryAt limit levels owner).read := by
  intro ts t rest h
  change readPrimary limit (inner limit levels) owner ts = .ok (t, rest) at h
  cases ts with
  | nil => cases h
  | cons x ts =>
    simp only [readPrimary] at h
    split at h
    · next hx =>
      cases h
      exact ⟨[x], ⟨.word x hx, rfl, rfl, Nat.zero_le _⟩, rfl⟩
    · next hx =>
      obtain ⟨us, hus, rfl⟩ := exists_group_of_group hin hx h
      exact ⟨x :: us, hus, rfl⟩
    all_goals cases h

theorem sound_negationAt
    (hp : ∀ owner, Sound (Derives levels .primary) (primaryAt limit levels owner).read)
    (owner : Option Token) :
    Sound (Derives levels .negation) (negationAt limit levels owner).read := by
  -- without a mark in front a negation is no more than a primary
  have plain : ∀ ts t rest, (primaryAt limit levels owner).read ts = .ok (t, rest) →
      ∃ us, Derives levels .negation us t ∧ us ++ rest = ts := by
    intro ts t rest h
    obtain ⟨us, ⟨d, rfl, rfl, hd⟩, rfl⟩ := hp _ _ _ _ h
    exact ⟨d.tokens, ⟨.plain d, rfl, rfl, hd⟩, rfl⟩
  intro ts t rest h
  change readNegation (primaryAt limit levels) owner ts = .ok (t, rest) at h
  cases ts with
  | nil => exact plain _ _ _ h
  | cons n ts =>
    simp only [readNegation] at h
    split at h
    · next hn =>
      split at h
      · split at h
        · cases h
        · next hr =>
          cases h
          obtain ⟨us, ⟨d, rfl, rfl, hd⟩, rfl⟩ := hp _ _ _ _ hr
          exact ⟨n :: d.tokens, ⟨.negated n hn d, rfl, rfl, hd⟩, rfl⟩
      · cases h
    · exact plain _ _ _ h

theorem sound_conjunctionAt
    (hn : ∀ owner, Sound (Derives levels .negation) (negationAt limit levels owner).read)
    (owner : Option Token) :
    Sound (Derives levels .conjunction) (conjunctionAt limit levels owner).read := by
  refine sound_chain (Derives levels .conjuncts) hn ?_ ?_ ?_ owner
  · exact ⟨.noConjunct, rfl, rfl, Nat.zero_le _⟩
  · rintro o us t vs f ho ⟨d, rfl, rfl, hd⟩ ⟨ds, rfl, rfl, hds⟩
    exact ⟨.and o ho d ds, rfl, rfl, Nat.max_le.2 ⟨hd, hds⟩⟩
  · rintro us t vs f ⟨d, rfl, rfl, hd⟩ ⟨ds, rfl, rfl, hds⟩
    exact ⟨.conjunction d ds, rfl, rfl, Nat.max_le.2 ⟨hd, hds⟩⟩

theorem sound_expression_of_inner (hin : InnerSound limit levels) (owner : Option Token) :
    Sound (Derives levels .expression) (expression limit levels owner).read := by
  have hc := sound_conjunctionAt (sound_negationAt (sound_primaryAt hin))
  rw [expression_eq]
  refine sound_chain (Derives levels .disjuncts) hc ?_ ?_ ?_ owner
  · exact ⟨.noDisjunct, rfl, rfl, Nat.zero_le _⟩
  · rintro o us t vs f ho ⟨d, rfl, rfl, hd⟩ ⟨ds, rfl, rfl, hds⟩
    exact ⟨.or o ho d ds, rfl, rfl, Nat.max_le.2 ⟨hd, hds⟩⟩
  · rintro us t vs f ⟨d, rfl, rfl, hd⟩ ⟨ds, rfl, rfl, hds⟩
    exact ⟨.expression d ds, rfl, rfl, Nat.max_le.2 ⟨hd, hds⟩⟩

end Levels

/-- Every expression that is read is one of the grammar. -/
theorem sound_expression (limit : Int) (levels : Nat) (owner : Option Token) :
    Sound (Derives levels .expression) (expression limit levels owner).read := by
  induction levels generalizing owner with
  | zero => exact sound_expression_of_inner (fun k hk => absurd hk (Nat.succ_ne_zero k)) owner
  | succ k ih =>
    refine sound_expression_of_inner (fun k' hk => ?_) owner
    obtain rfl := Nat.succ.inj hk
    exact ih

/-! ## Completeness -/

/-- The reader of rank `r` takes `m` from `ts`, on behalf of any owner, and leaves `rest`. -/
def Reads (limit : Int) (levels : Nat) (ts rest : List Token) : (r : Rank) → r.Meaning → Prop
  | .expression, t => ∀ owner, (expression limit levels owner).read ts = .ok (t, rest)
  | .disjuncts, f =>
    ∀ left, chainFrom .or .or (conjunctionAt limit levels) left ts = .ok (f left, rest)
  | .conjunction, t => ∀ owner, (conjunctionAt limit levels owner).read ts = .ok (t, rest)
  | .conjuncts, f =>
    ∀ left, chainFrom .and .and (negationAt limit levels) left ts = .ok (f left, rest)
  | .negation, t => ∀ owner, (negationAt limit levels owner).read ts = .ok (t, rest)
  | .primary, t => ∀ owner, (primaryAt limit levels owner).read ts = .ok (t, rest)

section Chains

variable {operator : TokenKind} {join : Tree → Tree → Tree} {operand : OperandReader}

theorem chainFrom_of_ne {left : Tree} {ts : List Token}
    (h : ∀ t us, ts = t :: us → t.kind ≠ operator) :
    chainFrom operator join operand left ts = .ok (left, ts) := by
  cases ts with
  | nil => rw [chainFrom]
  | cons t us => rw [chainFrom, if_neg (h t us rfl)]

theorem chainFrom_cons {left t : Tree} {o : Token} {ts rest : List Token} (ho : o.kind = operator)
    (h : (operand (some o)).read ts = .ok (t, rest)) :
    chainFrom operator join operand left (o :: ts) =
      chainFrom operator join operand (join left t) rest := by
  rw [chainFrom, if_pos ho]
  split
  · next h' => cases h.symm.trans h'
  · next h' =>
    cases h.symm.trans h'
    rfl

theorem read_chain {owner : Option Token} {t : Tree} {ts rest : List Token}
    (h : (operand owner).read ts = .ok (t, rest)) :
    (chain operator join operand owner).read ts = chainFrom operator join operand t rest := by
  show readChain operator join operand owner ts = _
  rw [readChain, h]

end Chains

theorem ne_of_endsBefore {r : Rank} {rest : List Token} {k : TokenKind}
    (he : r.EndsBefore .written rest) (hk : r.continuesWith .written k) :
    ∀ t us, rest = t :: us → t.kind ≠ k := by
  rintro t us h rfl
  have := he t us h
  rw [hk] at this
  cases this

/-- The reader of a derivation's rank takes the derivation, when what follows cannot continue it
and there are levels enough. -/
theorem reads {r : Rank} (d : Derivation .written r) (limit : Int) {levels : Nat}
    (hd : d.depth ≤ levels) {rest : List Token} (he : r.EndsBefore .written rest) :
    Reads limit levels (d.tokens ++ rest) rest r d.tree := by
  induction d generalizing levels rest with
  | word t h =>
    intro owner
    show readPrimary limit (inner limit levels) owner (t :: rest) = _
    simp only [readPrimary, h]
    rfl
  | group l hl e r hr ih =>
    intro owner
    cases levels with
    | zero => exact absurd hd (Nat.not_succ_le_zero _)
    | succ k =>
      obtain ⟨t, us, ht, hk⟩ := e.exists_head_of_expression
      -- content starts with an operand, so the group is not refused as an empty one
      have hopen : ¬ (e.tokens ++ r :: rest).head?.map Token.kind = some .closing := by
        rw [ht]
        intro h
        simp only [List.cons_append, List.head?_cons, Option.map_some, Option.some.injEq] at h
        rw [h] at hk
        cases hk
      have hin := ih (Nat.le_of_succ_le_succ hd) (Derivation.endsBefore_closing hr rest) (some l)
      show readPrimary limit (inner limit (k + 1)) owner (l :: ((e.tokens ++ [r]) ++ rest)) = _
      simp only [readPrimary, hl, inner, group, List.append_assoc, List.cons_append,
        List.nil_append, if_neg hopen, hin, hr, if_true]
      rfl
  | plain p ih =>
    intro owner
    obtain ⟨t, us, ht, hk⟩ := p.exists_head_of_primary
    have hp := ih hd (Derivation.primary_endsBefore rest) owner
    -- no primary starts with the mark of a negation
    have hne : t.kind ≠ .not := by rcases hk with hk | hk <;> simp [hk]
    show readNegation (primaryAt limit levels) owner (p.tokens ++ rest) = _
    rw [ht, List.cons_append] at hp ⊢
    rw [readNegation, if_neg hne]
    exact hp
  | negated n hn p ih =>
    intro owner
    obtain ⟨t, us, ht, hk⟩ := p.exists_head_of_primary
    have hp := ih hd (Derivation.primary_endsBefore rest) (some n)
    have hstarts : startsNegated ((p.tokens ++ rest).head?.map Token.kind) := by
      rw [ht]
      rcases hk with hk | hk <;> simp [hk, startsNegated]
    show readNegation (primaryAt limit levels) owner (n :: (p.tokens ++ rest)) = _
    rw [readNegation, if_pos hn, if_pos hstarts, hp]
    rfl
  | conjunction n ns ihn ihns =>
    intro owner
    obtain ⟨hdn, hdns⟩ := Nat.max_le.1 hd
    have hn := ihn hdn (Derivation.negation_endsBefore (ns.tokens ++ rest)) owner
    rw [Derivation.tokens, List.append_assoc, conjunctionAt, read_chain hn]
    exact ihns hdns he n.tree
  | noConjunct => exact fun left => chainFrom_of_ne (ne_of_endsBefore he rfl)
  | and o ho n ns ihn ihns =>
    intro left
    obtain ⟨hdn, hdns⟩ := Nat.max_le.1 hd
    have hn := ihn hdn (Derivation.negation_endsBefore (ns.tokens ++ rest)) (some o)
    rw [Derivation.tokens, List.cons_append, List.append_assoc, chainFrom_cons ho hn]
    exact ihns hdns he _
  | adjacent hj n ns ihn ihns => cases hj
  | expression c cs ihc ihcs =>
    intro owner
    obtain ⟨hdc, hdcs⟩ := Nat.max_le.1 hd
    have hc := ihc hdc (cs.conjunction_endsBefore he) owner
    rw [Derivation.tokens, List.append_assoc, expression_eq, read_chain hc]
    exact ihcs hdcs he c.tree
  | noDisjunct => exact fun left => chainFrom_of_ne (ne_of_endsBefore he rfl)
  | or o ho c cs ihc ihcs =>
    intro left
    obtain ⟨hdc, hdcs⟩ := Nat.max_le.1 hd
    have hc := ihc hdc (cs.conjunction_endsBefore he) (some o)
    rw [Derivation.tokens, List.cons_append, List.append_assoc, chainFrom_cons ho hc]
    exact ihcs hdcs he _

end Parser

/-! ## Recognition -/

/-- The parser accepts what the grammar derives within its depth, with the tree derived. -/
theorem parseTokens_iff_derivation {ts : List Token} {limit : Int} {t : Tree} :
    parseTokens ts limit = .ok t ↔
      ∃ d : Derivation .written .expression, d.tokens = ts ∧ d.tree = t ∧
        d.depth ≤ limit.toNat := by
  constructor
  · intro h
    unfold parseTokens at h
    split at h
    · cases h
    · next e hr =>
      cases h
      obtain ⟨us, ⟨d, rfl, rfl, hd⟩, rfl⟩ := Parser.sound_expression _ _ _ _ _ _ hr
      exact ⟨d, (List.append_nil _).symm, rfl, hd⟩
    · cases h
  · rintro ⟨d, rfl, rfl, hd⟩
    have hr := Parser.reads d limit hd Derivation.endsBefore_nil none
    rw [List.append_nil] at hr
    rw [parseTokens, hr]

/-- The parser accepts exactly the token lists that the strict grammar derives and whose groups
open within the limit. The tree is that of the derivation, of which there is only one, and a larger
limit leaves it as it is. -/
theorem parseTokens_recognizes (ts : List Token) (limit : Int) :
    (∀ t, parseTokens ts limit = .ok t ↔
      ∃ d : Derivation .written .expression,
        d.tokens = ts ∧ tokenBrackets.Within limit ts ∧ d.tree = t) ∧
    (∀ d d' : Derivation .written .expression, d.tokens = ts → d'.tokens = ts → d = d') ∧
    (∀ limit' t, limit ≤ limit' → parseTokens ts limit = .ok t →
      parseTokens ts limit' = .ok t) := by
  have recognizes : ∀ limit t, parseTokens ts limit = .ok t ↔
      ∃ d : Derivation .written .expression,
        d.tokens = ts ∧ tokenBrackets.Within limit ts ∧ d.tree = t := by
    intro limit t
    rw [parseTokens_iff_derivation]
    constructor
    · rintro ⟨d, rfl, ht, hd⟩
      exact ⟨d, rfl, d.within_tokens_iff.2 hd, ht⟩
    · rintro ⟨d, rfl, hw, ht⟩
      exact ⟨d, rfl, ht, d.within_tokens_iff.1 hw⟩
  refine ⟨recognizes limit, fun d d' h h' => ?_, fun limit' t hle h => ?_⟩
  · exact Derivation.tokens_injective (h.trans h'.symm)
  · obtain ⟨d, hts, hw, ht⟩ := (recognizes limit t).1 h
    exact (recognizes limit' t).2 ⟨d, hts, hw.mono hle, ht⟩

/-- A group around one word needs one level, and more of them change nothing. -/
theorem parse_grouped_word :
    parseTokens [⟨.opening, ['('], 0⟩, ⟨.word, ['a'], 1⟩, ⟨.closing, [')'], 2⟩] 1 =
        .ok (.word ['a']) ∧
      parseTokens [⟨.opening, ['('], 0⟩, ⟨.word, ['a'], 1⟩, ⟨.closing, [')'], 2⟩] 7 =
        .ok (.word ['a']) := by
  obtain ⟨accepts, -, raise⟩ := parseTokens_recognizes
    [⟨.opening, ['('], 0⟩, ⟨.word, ['a'], 1⟩, ⟨.closing, [')'], 2⟩] 1
  let word : Derivation .written .expression :=
    .expression (.conjunction (.plain (.word ⟨.word, ['a'], 1⟩ rfl)) .noConjunct) .noDisjunct
  let d : Derivation .written .expression :=
    .expression (.conjunction
      (.plain (.group ⟨.opening, ['('], 0⟩ rfl word ⟨.closing, [')'], 2⟩ rfl)) .noConjunct)
      .noDisjunct
  have h := (accepts (.word ['a'])).2 ⟨d, rfl, d.within_tokens_iff.2 (by decide), rfl⟩
  exact ⟨h, raise 7 _ (by decide) h⟩

end Headline.Query
