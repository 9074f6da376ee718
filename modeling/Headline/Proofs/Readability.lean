import Headline.Proofs.Description
import Headline.Proofs.Words

/-!
# Unique readability of descriptions

No description is the description of two trees, whatever words they have. A word may read like a
connective, but a connective stands between two operands, and a `NOT` in front of one.

Two descriptions are compared where each stands in front of something that cannot continue a word
(`Tree.Readable`). That goes by induction along the chains of the first tree; the chains themselves
are compared operand by operand (`eq_of_operands_append`).
-/

namespace Headline.Query

/-! ## Words -/

/-- A text that can be a word of a query: it is not empty, and without blanks and parentheses. -/
def IsWord (w : Text) : Prop := w ≠ [] ∧ ∀ c ∈ w, isBlank c = false ∧ c ≠ '(' ∧ c ≠ ')'

/-- All words of an expression are such texts. -/
def Expr.HasWords {α : Type} (e : Expr α) : Prop := ∀ w ∈ e.words, IsWord w

theorem IsWord.letters {w : Text} (hw : IsWord w) : ∀ c ∈ w, isLetter c :=
  fun c hc => isLetter_iff.2 (hw.2 c hc)

theorem IsWord.exists_cons {w : Text} (hw : IsWord w) :
    ∃ c s, w = c :: s ∧ isLetter c ∧ ∀ d ∈ s, isLetter d := by
  obtain ⟨c, s, rfl⟩ := List.exists_cons_of_ne_nil hw.1
  obtain ⟨hc, hs⟩ := List.forall_mem_cons.1 hw.letters
  exact ⟨c, s, rfl, hc, hs⟩

/-- Two words that each end where no letter follows are told apart by what they are. -/
theorem IsWord.append_inj {w w' rest rest' : Text} (hw : IsWord w) (hw' : IsWord w')
    (hrest : EndsWord rest) (hrest' : EndsWord rest') (h : w ++ rest = w' ++ rest') :
    w = w' ∧ rest = rest' := by
  have heq : w = w' := by
    rw [← wordTail_append hw.letters hrest, h, wordTail_append hw'.letters hrest']
  subst heq
  exact ⟨rfl, List.append_cancel_left h⟩

theorem Expr.hasWords_operands_iff {α : Type} {c : Connective} {left right : Expr α} :
    (∀ x ∈ c.operands left right, x.HasWords) ↔ (c.join left right).HasWords := by
  refine Connective.forall_mem_operands_iff (fun left right => ?_) left right
  cases c <;> exact List.forall_mem_append

namespace Tree

/-! ## First characters -/

theorem isWord_of_word {w : Text} (h : Expr.HasWords (.word w : Tree)) : IsWord w :=
  h w (List.mem_singleton.2 rfl)

/-- The description of an operation starts with a parenthesis, which no word does. -/
theorem description_ne_of_isWord {w s rest : Text} (hw : IsWord w) : '(' :: s ≠ w ++ rest := by
  obtain ⟨c, s, rfl, hc, -⟩ := hw.exists_cons
  rintro h
  obtain ⟨rfl, -⟩ := List.cons_eq_cons.1 h
  cases hc

/-- A chain is described by its first operand, and then the others, each behind the connective. -/
theorem description_join_append {c : Connective} {left right first : Tree} {more : List Tree}
    (h : c.operands left right = first :: more) (rest : Text) :
    description (c.join left right) ++ rest =
      '(' :: (first.description ++
        (more.flatMap (fun x => c.separator ++ x.description) ++ ')' :: rest)) := by
  rw [description_join, h, List.map_cons, Text.join_cons, List.flatMap_map]
  simp

theorem description_not_append (t : Tree) (rest : Text) :
    description (.not t) ++ rest =
      '(' :: ("NOT".toList ++ ' ' :: (t.description ++ ')' :: rest)) := by
  rw [description_not]
  simp

/-- What reads like a word in front of something else is that word. -/
theorem eq_word_of_description_append {t : Tree} (ht : t.HasWords) {w rest rest' : Text}
    (hw : IsWord w) (hrest : EndsWord rest) (hrest' : EndsWord rest')
    (h : t.description ++ rest = w ++ rest') : t = .word w ∧ rest = rest' := by
  induction t using Expr.chain_induction with
  | word v =>
    rw [description_word] at h
    obtain ⟨rfl, rfl⟩ := (isWord_of_word ht).append_inj hw hrest hrest' h
    exact ⟨rfl, rfl⟩
  | chain c left right ih =>
    obtain ⟨first, more, -, -, hoperands⟩ := c.exists_operands left right
    rw [description_join_append hoperands] at h
    exact absurd h (description_ne_of_isWord hw)
  | not t ih =>
    rw [description_not_append] at h
    exact absurd h (description_ne_of_isWord hw)
  | foreign a => cases a

/-! ## Unique readability -/

/-- In front of what cannot continue a word, the description of `t` is that of no other tree. -/
def Readable (t : Tree) : Prop :=
  ∀ (t' : Tree) rest rest', t'.HasWords → EndsWord rest → EndsWord rest' →
    t.description ++ rest = t'.description ++ rest' → t = t' ∧ rest = rest'

theorem isWord_name (c : Connective) : IsWord c.name := by
  cases c <;> exact ⟨by decide, by simp [Connective.name]; decide⟩

theorem endsWord_closing (s : Text) : EndsWord (')' :: s) := endsWord_cons (by decide)

/-- What follows the first operand of a chain continues no word. -/
theorem endsWord_more (c : Connective) (more : List Tree) {rest : Text} (hrest : EndsWord rest) :
    EndsWord (more.flatMap (fun x => c.separator ++ x.description) ++ rest) := by
  cases more with
  | nil => exact hrest
  | cons x more => exact endsWord_cons (by decide)

/-- The connective is known from what separates the operands. -/
theorem eq_of_separator_append {c c' : Connective} {s s' : Text}
    (h : c.separator ++ s = c'.separator ++ s') : c = c' := by
  cases c <;> cases c' <;> first | rfl | cases h

/-- Operands behind the same connective, up to the end of their chain. -/
theorem eq_of_operands_append {c : Connective} {xs ys : List Tree} {rest rest' : Text}
    (hxs : ∀ x ∈ xs, x.Readable) (hys : ∀ y ∈ ys, y.HasWords)
    (h : xs.flatMap (fun x => c.separator ++ x.description) ++ ')' :: rest =
      ys.flatMap (fun y => c.separator ++ y.description) ++ ')' :: rest') :
    xs = ys ∧ rest = rest' := by
  induction xs generalizing ys with
  | nil =>
    cases ys with
    | nil => exact ⟨rfl, List.tail_eq_of_cons_eq h⟩
    -- one list ends where the other one has a separator
    | cons y ys => cases c <;> cases h
  | cons x xs ih =>
    cases ys with
    | nil => cases c <;> cases h
    | cons y ys =>
      rw [List.forall_mem_cons] at hxs hys
      simp only [List.flatMap_cons, List.append_assoc] at h
      obtain ⟨rfl, hmore⟩ := hxs.1 y _ _ hys.1 (endsWord_more c xs (endsWord_closing rest))
        (endsWord_more c ys (endsWord_closing rest')) (List.append_cancel_left h)
      obtain ⟨rfl, hrest⟩ := ih hxs.2 hys.2 hmore
      exact ⟨rfl, hrest⟩

/-- Two chains whose descriptions agree have one connective and the same operands. -/
theorem join_eq_of_description_append {c c' : Connective} {left right left' right' : Tree}
    {rest rest' : Text} (hread : ∀ x ∈ c.operands left right, Readable x)
    (hwords : (c'.join left' right').HasWords)
    (h : description (c.join left right) ++ rest = description (c'.join left' right') ++ rest') :
    c.join left right = c'.join left' right' ∧ rest = rest' := by
  obtain ⟨first, more, hne, hjoin, hoperands⟩ := c.exists_operands left right
  obtain ⟨first', more', hne', hjoin', hoperands'⟩ := c'.exists_operands left' right'
  rw [hoperands, List.forall_mem_cons] at hread
  rw [← Expr.hasWords_operands_iff, hoperands', List.forall_mem_cons] at hwords
  rw [description_join_append hoperands, description_join_append hoperands'] at h
  obtain ⟨rfl, hmore⟩ := hread.1 first' _ _ hwords.1 (endsWord_more c _ (endsWord_closing _))
    (endsWord_more c' _ (endsWord_closing _)) (List.cons_eq_cons.1 h).2
  -- the first operands are the same, so the names of the connectives stand side by side
  have hc : c = c' := by
    obtain ⟨x, xs, rfl⟩ := List.exists_cons_of_ne_nil hne
    obtain ⟨y, ys, rfl⟩ := List.exists_cons_of_ne_nil hne'
    simp only [List.flatMap_cons, List.append_assoc] at hmore
    exact eq_of_separator_append hmore
  subst hc
  obtain ⟨rfl, hrest⟩ := eq_of_operands_append hread.2 hwords.2 hmore
  exact ⟨hjoin.symm.trans hjoin', hrest⟩

/-- A negation is no chain whose first word is `NOT`: behind its operand stands a parenthesis. -/
theorem not_ne_join {c : Connective} {t left right : Tree} {rest rest' : Text}
    (ht : t.HasWords) (hchain : (c.join left right).HasWords) :
    description (.not t) ++ rest ≠ description (c.join left right) ++ rest' := by
  obtain ⟨first, more, hne, -, hoperands⟩ := c.exists_operands left right
  rw [← Expr.hasWords_operands_iff, hoperands, List.forall_mem_cons] at hchain
  obtain ⟨y, more, rfl⟩ := List.exists_cons_of_ne_nil hne
  rw [description_not_append, description_join_append hoperands]
  intro h
  -- the first operand of the chain would have to read like the mark of a negation
  have hnot : IsWord "NOT".toList := ⟨by decide, by simp; decide⟩
  obtain ⟨-, hbehind⟩ := eq_word_of_description_append hchain.1 hnot
    (endsWord_more c _ (endsWord_closing rest')) (endsWord_cons (by decide))
    (List.cons_eq_cons.1 h).2.symm
  -- what is negated would have to be the name of the connective, with an operand behind it
  simp only [List.flatMap_cons, List.append_assoc, List.cons_append, List.nil_append,
    Connective.separator, List.cons.injEq, true_and] at hbehind
  obtain ⟨-, hafter⟩ := eq_word_of_description_append ht (isWord_name c) (endsWord_closing rest)
    (endsWord_cons (by decide)) hbehind.symm
  cases hafter

theorem readable_of_hasWords {t : Tree} (ht : t.HasWords) : t.Readable := by
  induction t using Expr.chain_induction with
  | word w =>
    intro t' rest rest' ht' hrest hrest' h
    rw [description_word] at h
    obtain ⟨rfl, hrest⟩ := eq_word_of_description_append ht' (isWord_of_word ht) hrest' hrest h.symm
    exact ⟨rfl, hrest.symm⟩
  | chain c left right ih =>
    intro t' rest rest' ht' hrest hrest' h
    cases t' using Expr.chain_induction with
    | word w =>
      rw [description_word] at h
      exact eq_word_of_description_append ht (isWord_of_word ht') hrest hrest' h
    | not t' => exact absurd h.symm (not_ne_join ht' ht)
    | chain c' left' right' =>
      rw [← Expr.hasWords_operands_iff] at ht
      exact join_eq_of_description_append (fun x hx => ih x hx (ht x hx)) ht' h
    | foreign a => cases a
  | not t ih =>
    intro t' rest rest' ht' hrest hrest' h
    cases t' using Expr.chain_induction with
    | word w =>
      rw [description_word] at h
      exact eq_word_of_description_append ht (isWord_of_word ht') hrest hrest' h
    | not t' =>
      rw [description_not_append, description_not_append] at h
      have hbehind := List.append_cancel_left (List.cons_eq_cons.1 h).2
      obtain ⟨rfl, hclosing⟩ := ih ht t' _ _ ht' (endsWord_closing rest) (endsWord_closing rest')
        (List.cons_eq_cons.1 hbehind).2
      exact ⟨rfl, (List.cons_eq_cons.1 hclosing).2⟩
    | chain c left right => exact absurd h (not_ne_join ht ht')
    | foreign a => cases a
  | foreign a => cases a

end Tree

/-! ## Words of a query -/

/-- A word among the tokens of a query is a word that spells no operator. -/
theorem isWord_of_scans {limit : Int} {previous : Option Char} {position : Nat}
    {opened : List Nat} {s : Text} {ts : List Token}
    (h : Scans limit previous position opened s ts) :
    ∀ t ∈ ts, t.kind = .word → IsWord t.spelling ∧ TokenKind.ofWord t.spelling = .word := by
  induction h with
  | done => simp
  | blank hc h ih => exact ih
  | opening hdepth h ih | closing h ih | negation hprevious hnext h ih =>
    exact List.forall_mem_cons.2 ⟨fun hk => (by cases hk), ih⟩
  | @word _ _ _ c run _ _ hc hrun hs hhyphen h ih =>
    have hletters : ∀ d ∈ c :: run, isLetter d := List.forall_mem_cons.2 ⟨hc, hrun⟩
    exact List.forall_mem_cons.2
      ⟨fun hk => ⟨⟨by simp, fun d hd => isLetter_iff.1 (hletters d hd)⟩, hk⟩, ih⟩

theorem isWord_of_mem_words {q : Text} {limit : Int} {t : Tree} (h : parse q limit = .ok t)
    {w : Text} (hw : w ∈ t.words) : IsWord w ∧ TokenKind.ofWord w = .word := by
  obtain ⟨ts, hscan, hwords⟩ := words_of_parse h
  rw [hwords] at hw
  obtain ⟨token, htoken, hkind, rfl⟩ := exists_token_of_mem_wordsOf hw
  exact isWord_of_scans hscan token htoken hkind

theorem hasWords_of_parse {q : Text} {limit : Int} {t : Tree} (h : parse q limit = .ok t) :
    t.HasWords := fun _ hw => (isWord_of_mem_words h hw).1

theorem eq_of_description_eq {t t' : Tree} (ht : t.HasWords) (ht' : t'.HasWords)
    (h : t.description = t'.description) : t = t' := by
  have hnil : t.description ++ [] = t'.description ++ [] := by rw [h]
  exact (Tree.readable_of_hasWords ht t' [] [] ht' endsWord_nil endsWord_nil hnil).1

/-- A description has one tree, if the words of the tree are words. Those of a query are, so the
description of its tree, which a check of the query ends with, determines the tree. -/
theorem description_determines_tree {t t' : Tree} (h : t.description = t'.description) :
    (t.HasWords → t'.HasWords → t = t') ∧
    ∀ q q' limit limit', parse q limit = .ok t → parse q' limit' = .ok t' → t = t' := by
  refine ⟨fun ht ht' => eq_of_description_eq ht ht' h, fun q q' limit limit' hq hq' => ?_⟩
  exact eq_of_description_eq (hasWords_of_parse hq) (hasWords_of_parse hq') h

/-- Words that read like connectives, in a chain and under a negation. -/
theorem trees_of_one_description :
    ∃ t t', parse "NOT a -(-NOT)".toList 2 = .ok t ∧
      parse "(NOT AND (a)) -(-NOT)".toList 3 = .ok t' ∧
      t.description = "(NOT AND a AND (NOT (NOT NOT)))".toList ∧ t = t' := by
  let not : Tree := .word "NOT".toList
  let t : Tree := .and (.and not (.word "a".toList)) (.not (.not not))
  have hq : parse "NOT a -(-NOT)".toList 2 = .ok t := by decide +kernel
  have hq' : parse "(NOT AND (a)) -(-NOT)".toList 3 = .ok t := by decide +kernel
  have hdescription : t.description = "(NOT AND a AND (NOT (NOT NOT)))".toList := by decide +kernel
  exact ⟨t, t, hq, hq', hdescription, (description_determines_tree rfl).2 _ _ _ _ hq hq'⟩

end Headline.Query
