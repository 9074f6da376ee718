import Headline.Proofs.Words
import Mathlib.Data.List.Forall2

/-!
# The shape of a query

The shape of a tree is what is left of it without the spelling of its words. It is decided by the
kinds of the tokens (`exists_of_map_kind`), and the words are those of the tokens. So two queries
whose tokens agree up to spelling have trees that agree up to their words
(`exists_derivation_respelled_iff`).
-/

namespace Headline.Query

namespace Expr

variable {α : Type}

/-- The expression with every word rewritten by `f`. -/
def mapWords (f : Text → Text) : Expr α → Expr α
  | word w => word (f w)
  | and left right => and (left.mapWords f) (right.mapWords f)
  | or left right => or (left.mapWords f) (right.mapWords f)
  | not e => not (e.mapWords f)
  | foreign a => foreign a

/-- The expression without the spelling of its words. -/
def shape (e : Expr α) : Expr α := e.mapWords fun _ => []

theorem words_mapWords (f : Text → Text) (e : Expr α) : (e.mapWords f).words = e.words.map f := by
  induction e with
  | word w => rfl
  | and left right ihl ihr | or left right ihl ihr => simp only [mapWords, words, ihl, ihr,
      List.map_append]
  | not e ih => exact ih
  | foreign a => rfl

theorem mapWords_mapWords (f g : Text → Text) (e : Expr α) :
    (e.mapWords f).mapWords g = e.mapWords (g ∘ f) := by
  induction e with
  | word w => rfl
  | and left right ihl ihr | or left right ihl ihr => simp only [mapWords, ihl, ihr]
  | not e ih => simp only [mapWords, ih]
  | foreign a => rfl

theorem shape_mapWords (f : Text → Text) (e : Expr α) : (e.mapWords f).shape = e.shape :=
  mapWords_mapWords f _ e

/-- Only what `f` makes of the words that occur counts. -/
theorem mapWords_congr {f g : Text → Text} {e : Expr α} (h : ∀ w ∈ e.words, f w = g w) :
    e.mapWords f = e.mapWords g := by
  induction e with
  | word w => rw [mapWords, mapWords, h w (List.mem_singleton.2 rfl)]
  | and left right ihl ihr | or left right ihl ihr =>
    rw [words, List.forall_mem_append] at h
    rw [mapWords, mapWords, ihl h.1, ihr h.2]
  | not e ih => rw [mapWords, mapWords, ih h]
  | foreign a => rfl

theorem length_words_of_shape {e e' : Expr α} (h : e.shape = e'.shape) :
    e.words.length = e'.words.length := by
  have hwords := congrArg (fun e => e.words.length) h
  simpa only [shape, words_mapWords, List.length_map] using hwords

/-- Shape and words make up an expression. -/
theorem eq_of_shape_of_words {e e' : Expr α} (hs : e.shape = e'.shape) (hw : e.words = e'.words) :
    e = e' := by
  induction e generalizing e' with
  | word w =>
    cases e' with
    | word w' => rw [List.singleton_inj.1 hw]
    | _ => cases hs
  | and left right ihl ihr =>
    cases e' with
    | and left' right' =>
      obtain ⟨hl, hr⟩ := Expr.and.inj hs
      -- trees of one shape have as many words, so both lists part at the same place
      obtain ⟨hwl, hwr⟩ := List.append_inj hw (length_words_of_shape hl)
      rw [ihl hl hwl, ihr hr hwr]
    | _ => cases hs
  | or left right ihl ihr =>
    cases e' with
    | or left' right' =>
      obtain ⟨hl, hr⟩ := Expr.or.inj hs
      obtain ⟨hwl, hwr⟩ := List.append_inj hw (length_words_of_shape hl)
      rw [ihl hl hwl, ihr hr hwr]
    | _ => cases hs
  | not e ih =>
    cases e' with
    | not e' => rw [ih (Expr.not.inj hs) hw]
    | _ => cases hs
  | foreign a =>
    cases e' with
    | foreign a' => rw [Expr.foreign.inj hs]
    | _ => cases hs

end Expr

/-! ## Shapes from kinds -/

/-- Two meanings of a phrase agree up to the spelling of words. -/
def Rank.SameShape : (r : Rank) → r.Meaning → r.Meaning → Prop
  | .disjuncts, f, g | .conjuncts, f, g =>
    ∀ left left', left.shape = left'.shape → (f left).shape = (g left').shape
  | .expression, t, u | .conjunction, t, u | .negation, t, u | .primary, t, u => t.shape = u.shape

namespace Derivation

variable {j : Juncture} {r : Rank}

/-- Tokens of the same kinds spell out a phrase of the same shape. -/
theorem exists_of_map_kind (d : Derivation j r) {us : List Token}
    (h : us.map Token.kind = d.tokens.map Token.kind) :
    ∃ d' : Derivation j r, d'.tokens = us ∧ r.SameShape d.tree d'.tree := by
  -- the grammar asks for the kinds of tokens alone
  induction d generalizing us with
  | word t ht =>
    obtain ⟨u, us, rfl, hu, hnil⟩ := List.map_eq_cons_iff.1 h
    obtain rfl := List.map_eq_nil_iff.1 hnil
    exact ⟨.word u (hu.trans ht), rfl, rfl⟩
  | group l hl e r hr ih =>
    obtain ⟨l', us, rfl, hl', hin⟩ := List.map_eq_cons_iff.1 h
    rw [List.map_append] at hin
    obtain ⟨vs, rs, rfl, he, hclose⟩ := List.map_eq_append_iff.1 hin
    obtain ⟨r', us, rfl, hr', hnil⟩ := List.map_eq_cons_iff.1 hclose
    obtain rfl := List.map_eq_nil_iff.1 hnil
    obtain ⟨e', rfl, hshape⟩ := ih he
    exact ⟨.group l' (hl'.trans hl) e' r' (hr'.trans hr), rfl, hshape⟩
  | plain p ih =>
    obtain ⟨p', rfl, hshape⟩ := ih h
    exact ⟨.plain p', rfl, hshape⟩
  | negated n hn p ih =>
    obtain ⟨n', us, rfl, hn', hp⟩ := List.map_eq_cons_iff.1 h
    obtain ⟨p', rfl, hshape⟩ := ih hp
    exact ⟨.negated n' (hn'.trans hn) p', rfl, congrArg Expr.not hshape⟩
  | conjunction n ns ihn ihns =>
    rw [tokens, List.map_append] at h
    obtain ⟨vs, vs', rfl, hn, hns⟩ := List.map_eq_append_iff.1 h
    obtain ⟨n', rfl, hnshape⟩ := ihn hn
    obtain ⟨ns', rfl, hnsshape⟩ := ihns hns
    exact ⟨.conjunction n' ns', rfl, hnsshape _ _ hnshape⟩
  | noConjunct =>
    obtain rfl := List.map_eq_nil_iff.1 h
    exact ⟨.noConjunct, rfl, fun _ _ hleft => hleft⟩
  | and o ho n ns ihn ihns =>
    obtain ⟨o', us, rfl, ho', hin⟩ := List.map_eq_cons_iff.1 h
    rw [List.map_append] at hin
    obtain ⟨vs, vs', rfl, hn, hns⟩ := List.map_eq_append_iff.1 hin
    obtain ⟨n', rfl, hnshape⟩ := ihn hn
    obtain ⟨ns', rfl, hnsshape⟩ := ihns hns
    refine ⟨.and o' (ho'.trans ho) n' ns', rfl, fun left left' hleft => hnsshape _ _ ?_⟩
    exact congrArg₂ Expr.and hleft hnshape
  | adjacent hj n ns ihn ihns =>
    rw [tokens, List.map_append] at h
    obtain ⟨vs, vs', rfl, hn, hns⟩ := List.map_eq_append_iff.1 h
    obtain ⟨n', rfl, hnshape⟩ := ihn hn
    obtain ⟨ns', rfl, hnsshape⟩ := ihns hns
    refine ⟨.adjacent hj n' ns', rfl, fun left left' hleft => hnsshape _ _ ?_⟩
    exact congrArg₂ Expr.and hleft hnshape
  | expression c cs ihc ihcs =>
    rw [tokens, List.map_append] at h
    obtain ⟨vs, vs', rfl, hc, hcs⟩ := List.map_eq_append_iff.1 h
    obtain ⟨c', rfl, hcshape⟩ := ihc hc
    obtain ⟨cs', rfl, hcsshape⟩ := ihcs hcs
    exact ⟨.expression c' cs', rfl, hcsshape _ _ hcshape⟩
  | noDisjunct =>
    obtain rfl := List.map_eq_nil_iff.1 h
    exact ⟨.noDisjunct, rfl, fun _ _ hleft => hleft⟩
  | or o ho c cs ihc ihcs =>
    obtain ⟨o', us, rfl, ho', hin⟩ := List.map_eq_cons_iff.1 h
    rw [List.map_append] at hin
    obtain ⟨vs, vs', rfl, hc, hcs⟩ := List.map_eq_append_iff.1 hin
    obtain ⟨c', rfl, hcshape⟩ := ihc hc
    obtain ⟨cs', rfl, hcsshape⟩ := ihcs hcs
    refine ⟨.or o' (ho'.trans ho) c' cs', rfl, fun left left' hleft => hcsshape _ _ ?_⟩
    exact congrArg₂ Expr.or hleft hcshape

end Derivation

/-! ## Respelled tokens -/

/-- The token `u` is `t`, respelled by `f`; where they stand does not count. -/
def Token.RespelledBy (f : Text → Text) (t u : Token) : Prop :=
  u.kind = t.kind ∧ u.spelling = f t.spelling

theorem map_kind_of_forall₂ {f : Text → Text} {ts us : List Token}
    (h : List.Forall₂ (Token.RespelledBy f) ts us) : us.map Token.kind = ts.map Token.kind := by
  induction h with
  | nil => rfl
  | cons ht h ih => rw [List.map_cons, List.map_cons, ht.1, ih]

theorem wordsOf_of_forall₂ {f : Text → Text} {ts us : List Token}
    (h : List.Forall₂ (Token.RespelledBy f) ts us) : wordsOf us = (wordsOf ts).map f := by
  induction h with
  | nil => rfl
  | @cons t u ts us ht h ih =>
    by_cases hk : t.kind = .word
    · rw [wordsOf_cons_word (ht.1.trans hk), wordsOf_cons_word hk, List.map_cons, ht.2, ih]
    · rw [wordsOf_cons_of_ne (ht.1.symm ▸ hk), wordsOf_cons_of_ne hk, ih]

/-- Tokens that agree up to spelling derive trees that agree up to their words. -/
theorem exists_derivation_respelled_iff {f : Text → Text} {ts us : List Token} {t : Tree}
    (h : List.Forall₂ (Token.RespelledBy f) ts us) :
    (∃ d : Derivation .optional .expression, d.tokens = us ∧ d.tree = t) ↔
      ∃ d : Derivation .optional .expression, d.tokens = ts ∧ d.tree.mapWords f = t := by
  have respell : ∀ d d' : Derivation .optional .expression, d.tokens = ts → d'.tokens = us →
      d.tree.shape = d'.tree.shape → d.tree.mapWords f = d'.tree := by
    rintro d d' rfl rfl hshape
    have hwords : d.tree.words = wordsOf d.tokens := d.bringsWords_tree
    have hwords' : d'.tree.words = wordsOf d'.tokens := d'.bringsWords_tree
    apply Expr.eq_of_shape_of_words
    · rw [Expr.shape_mapWords, hshape]
    · rw [Expr.words_mapWords, hwords, hwords', wordsOf_of_forall₂ h]
  -- the kinds give the shape, and the spellings give the words
  have hkinds := map_kind_of_forall₂ h
  constructor
  · rintro ⟨d', htokens', rfl⟩
    obtain ⟨d, htokens, hshape⟩ := d'.exists_of_map_kind (htokens' ▸ hkinds.symm)
    exact ⟨d, htokens, respell d d' htokens htokens' hshape.symm⟩
  · rintro ⟨d, htokens, rfl⟩
    obtain ⟨d', htokens', hshape⟩ := d.exists_of_map_kind (htokens ▸ hkinds)
    exact ⟨d', htokens', (respell d d' htokens htokens' hshape).symm⟩

end Headline.Query
