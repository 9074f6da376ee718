import Headline.Proofs.Adjacency
import Headline.Proofs.FirstFault
import Headline.Proofs.Lexemes
import Mathlib.Data.List.Nodup

/-!
# What faults of a query blame

What the lexer yields is balanced, nests within the limit, and negates nothing but terms (`Lexed`).
Hence few of the parser's faults are left, and each of them blames tokens that stand in the query
(`Blames`).

`faultsBlame_of_lexed` goes along such a list next to the stances of `firstFault`. An `AND` that the
pass has written is never at fault, because an operand starts right behind it.
-/

namespace Headline.Query

/-! ## Lists of lexemes -/

/-- What the lexer yields inside so many groups: parentheses are balanced, nest within the limit,
and a negation is followed by something else than a closing parenthesis, a negation or the end. -/
inductive Lexed (limit : Int) : Nat → List Token → Prop
  | done : Lexed limit 0 []
  | opening {depth : Nat} {t ts} (ht : t.kind = .opening) (hdepth : (depth : Int) + 1 ≤ limit)
      (h : Lexed limit (depth + 1) ts) : Lexed limit depth (t :: ts)
  | closing {depth t ts} (ht : t.kind = .closing) (h : Lexed limit depth ts) :
      Lexed limit (depth + 1) (t :: ts)
  | negation {depth n t ts} (hn : n.kind = .not) (hnot : t.kind ≠ .not)
      (hclosing : t.kind ≠ .closing) (h : Lexed limit depth (t :: ts)) :
      Lexed limit depth (n :: t :: ts)
  | word {depth t ts} (ht : t.kind = .word) (h : Lexed limit depth ts) : Lexed limit depth (t :: ts)
  | operator {depth t ts} (ht : t.kind = .and ∨ t.kind = .or) (h : Lexed limit depth ts) :
      Lexed limit depth (t :: ts)

/-- Behind a negation stands a word or a group. -/
theorem exists_head_of_negated {limit : Int} {previous : Option Char} {position : Nat}
    {opened : List Nat} {s : Text} {ts : List Token} (h : Scans limit previous position opened s ts)
    (hs : Hyphen.before s.head? = .negation) :
    ∃ t us, ts = t :: us ∧ t.kind ≠ .not ∧ t.kind ≠ .closing := by
  rw [before_eq_negation_iff] at hs
  cases h with
  | done => cases hs
  | blank hc h => simp [hc] at hs
  | opening hdepth h => exact ⟨_, _, rfl, by simp, by simp⟩
  | closing h => simp at hs
  | negation hprevious hnext h => simp at hs
  | @word _ _ _ c run _ ts hc hrun hend hhyphen h =>
    refine ⟨_, _, rfl, ?_, ofWord_ne_closing _⟩
    rcases ofWord_cases (c :: run) with hk | hk | hk <;> simp [hk]

theorem lexed_of_scans {limit : Int} {previous : Option Char} {position : Nat} {opened : List Nat}
    {s : Text} {ts : List Token} (h : Scans limit previous position opened s ts) :
    Lexed limit opened.length ts := by
  induction h with
  | done => exact .done
  | blank hc h ih => exact ih
  | opening hdepth h ih => exact .opening rfl hdepth ih
  | closing h ih => exact .closing rfl ih
  | negation hprevious hnext h ih =>
    -- the scan has looked at what stands behind the hyphen
    obtain ⟨t, us, rfl, hnot, hclosing⟩ := exists_head_of_negated h hnext
    exact .negation rfl hnot hclosing ih
  | @word _ _ _ c run _ _ hc hrun hs hhyphen h ih =>
    rcases ofWord_cases (c :: run) with hk | hk
    · exact .word hk ih
    · exact .operator hk ih

/-! ## Blame -/

/-- A fault blames tokens of a list: a group without content, a negation in front of an operator, or
an operator that lacks an operand. -/
inductive Blames (ts : List Token) : Fault → Prop
  | emptyGroup {l r : Token} (hl : l.kind = .opening) (hr : r.kind = .closing)
      (h : [l, r] <:+: ts) : Blames ts (.emptyGroup l.position)
  | danglingNot {n o : Token} (hn : n.kind = .not) (ho : o.kind = .and ∨ o.kind = .or)
      (h : [n, o] <:+: ts) : Blames ts (.danglingNot n.position)
  | missingOperand {o : Token} (ho : o.kind = .and ∨ o.kind = .or) (h : o ∈ ts) :
      Blames ts (.missingOperand o)
  | expectedTerm {o : Token} (ho : o.kind = .and ∨ o.kind = .or) (h : o ∈ ts) :
      Blames ts (.expectedTerm o)

theorem Blames.mono {ts us : List Token} {f : Fault} (h : Blames ts f) (hts : ts <:+: us) :
    Blames us f := by
  cases h with
  | emptyGroup hl hr h => exact .emptyGroup hl hr (h.trans hts)
  | danglingNot hn ho h => exact .danglingNot hn ho (h.trans hts)
  | missingOperand ho h => exact .missingOperand ho (hts.subset h)
  | expectedTerm ho h => exact .expectedTerm ho (hts.subset h)

/-- What is told of a fault that blames tokens of `ts`: its wording, and where the token stands. -/
inductive Complains (ts : List Token) : Diagnosis → Prop
  | emptyGroup {l r : Token} (hl : l.kind = .opening) (hr : r.kind = .closing)
      (h : [l, r] <:+: ts) : Complains ts ⟨"Empty group '()'".toList, l.position⟩
  | danglingNot {n o : Token} (hn : n.kind = .not) (ho : o.kind = .and ∨ o.kind = .or)
      (h : [n, o] <:+: ts) :
      Complains ts ⟨"'-' must be directly followed by a term".toList, n.position⟩
  | missingOperand {o : Token} (ho : o.kind = .and ∨ o.kind = .or) (h : o ∈ ts) :
      Complains ts ⟨"Operator ".toList ++ o.spelling.quoted ++ " is missing an operand".toList,
        o.position⟩
  | expectedTerm {o : Token} (ho : o.kind = .and ∨ o.kind = .or) (h : o ∈ ts) :
      Complains ts ⟨"Expected a term after ".toList ++ o.spelling.quoted, o.position⟩

theorem Blames.complains {ts : List Token} {f : Fault} (h : Blames ts f) :
    Complains ts f.diagnosis := by
  cases h with
  | emptyGroup hl hr h => exact .emptyGroup hl hr h
  | danglingNot hn ho h => exact .danglingNot hn ho h
  | missingOperand ho h => exact .missingOperand ho h
  | expectedTerm ho h => exact .expectedTerm ho h

namespace Demand

/-- The token that makes the demand, if there is one. -/
def token? : Demand → Option Token
  | operand owner => owner
  | content l => some l
  | term n => some n

/-- Whether the lexer can go on with `ts`, inside so many groups, where this is demanded. -/
def Admits (depth : Nat) (ts : List Token) : Demand → Prop
  | operand none => depth = 0 ∧ ts ≠ []
  | operand (some o) => o.kind = .and ∨ o.kind = .or
  | content l => l.kind = .opening ∧ depth ≠ 0
  | term n => n.kind = .not ∧ ∃ t us, ts = t :: us ∧ t.kind ≠ .not ∧ t.kind ≠ .closing

end Demand

/-- Whatever is due in front of `ts`, with the `AND`s that the pass writes, what is at fault there
stands in `ts` or demands it. -/
def FaultsBlame (limit : Int) (opened ts : List Token) : Prop :=
  ∀ f, (∀ demand : Demand, demand.Admits opened.length ts →
      firstFault limit (.expected opened demand) (joinAfter false ts) = some f →
      Blames (demand.token?.toList ++ ts) f) ∧
    (firstFault limit (.complete opened) (joinAfter true ts) = some f → Blames ts f)

section Stances

variable {limit : Int} {opened : List Token} {t : Token} {ts : List Token}

/-- In front of an operand the pass writes what demands it, so it matters little what was due. -/
theorem faultsBlame_of_startsOperand (ht : t.kind.startsOperand)
    (h : ∀ demand f, (t.kind = .not → ∀ n, demand ≠ .term n) →
      firstFault limit (.expected opened demand) (joinAfter false (t :: ts)) = some f →
      Blames (t :: ts) f) : FaultsBlame limit opened (t :: ts) := by
  refine fun f => ⟨fun demand hadmits hf => ?_, fun hf => ?_⟩
  · refine (h demand f ?_ hf).mono (List.suffix_append _ _).isInfix
    rintro hnot n rfl
    obtain ⟨-, t', us, heq, hne, -⟩ := hadmits
    obtain ⟨rfl, -⟩ := List.cons_eq_cons.1 heq
    exact hne hnot
  · rw [joinAfter_join ht, ← joinAfter_false_cons, firstFault_operator _ (.inl rfl)] at hf
    exact h _ f (fun _ n => by simp) hf

theorem faultsBlame_nil (hopened : opened = []) : FaultsBlame limit opened [] := by
  subst hopened
  refine fun f => ⟨fun demand hadmits hf => ?_, fun hf => by cases hf⟩
  -- at the end of a query nothing but an operand of an operator can be due
  cases demand with
  | operand owner =>
    cases owner with
    | none => exact absurd rfl hadmits.2
    | some o =>
      obtain rfl := Option.some.inj hf
      exact .expectedTerm hadmits (List.mem_singleton.2 rfl)
  | content l => exact absurd rfl hadmits.2
  | term n =>
    obtain ⟨-, t, us, heq, -⟩ := hadmits
    cases heq

theorem faultsBlame_opening (ht : t.kind = .opening) (hdepth : (opened.length : Int) + 1 ≤ limit)
    (ih : FaultsBlame limit (t :: opened) ts) : FaultsBlame limit opened (t :: ts) := by
  refine faultsBlame_of_startsOperand (by rw [ht]; rfl) fun demand f _ hf => ?_
  rw [joinAfter_false_cons, firstFault_opening _ ht hdepth, ht] at hf
  exact (ih f).1 (.content t) ⟨ht, by simp⟩ hf

theorem faultsBlame_word (ht : t.kind = .word) (ih : FaultsBlame limit opened ts) :
    FaultsBlame limit opened (t :: ts) := by
  refine faultsBlame_of_startsOperand (by rw [ht]; rfl) fun demand f _ hf => ?_
  rw [joinAfter_false_cons, firstFault_word _ ht, ht] at hf
  exact ((ih f).2 hf).mono (List.suffix_cons t ts).isInfix

theorem faultsBlame_negation {n : Token} (hn : n.kind = .not) (hnot : t.kind ≠ .not)
    (hclosing : t.kind ≠ .closing) (ih : FaultsBlame limit opened (t :: ts)) :
    FaultsBlame limit opened (n :: t :: ts) := by
  refine faultsBlame_of_startsOperand (by rw [hn]; rfl) fun demand f hdemand hf => ?_
  rw [joinAfter_false_cons, firstFault_not _ hn (hdemand hn), hn] at hf
  exact (ih f).1 (.term n) ⟨hn, t, ts, rfl, hnot, hclosing⟩ hf

theorem faultsBlame_operator (ht : t.kind = .and ∨ t.kind = .or)
    (ih : FaultsBlame limit opened ts) : FaultsBlame limit opened (t :: ts) := by
  have hstarts : t.kind.startsOperand = false := by rcases ht with ht | ht <;> rw [ht] <;> rfl
  have hends : t.kind.endsOperand = false := by rcases ht with ht | ht <;> rw [ht] <;> rfl
  refine fun f => ⟨fun demand hadmits hf => ?_, fun hf => ?_⟩
  · rw [joinAfter_false_cons] at hf
    -- a negation that waits for its term takes the blame, else it is the operator's
    cases demand with
    | term n =>
      rw [firstFault_danglingNot _ ht] at hf
      obtain rfl := Option.some.inj hf
      exact .danglingNot hadmits.1 ht (List.prefix_append [n, t] ts).isInfix
    | _ =>
      rw [firstFault_missingOperand _ ht (by simp)] at hf
      obtain rfl := Option.some.inj hf
      exact .missingOperand ht (List.mem_append_right _ (List.mem_cons_self ..))
  · rw [joinAfter_of_not_starts hstarts, firstFault_operator _ ht, hends] at hf
    exact (ih f).1 (.operand t) ht hf

theorem faultsBlame_closing {l : Token} (ht : t.kind = .closing)
    (ih : FaultsBlame limit opened ts) : FaultsBlame limit (l :: opened) (t :: ts) := by
  refine fun f => ⟨fun demand hadmits hf => ?_, fun hf => ?_⟩
  · rw [joinAfter_false_cons, firstFault_closing _ ht] at hf
    obtain rfl := Option.some.inj hf
    cases demand with
    | operand owner =>
      cases owner with
      | none => cases hadmits.1
      | some o => exact .expectedTerm hadmits (List.mem_cons_self ..)
    | content l =>
      exact .emptyGroup hadmits.1 ht (List.prefix_append [l, t] ts).isInfix
    | term n =>
      obtain ⟨-, t', us, heq, -, hne⟩ := hadmits
      obtain ⟨rfl, -⟩ := List.cons_eq_cons.1 heq
      exact absurd ht hne
  · rw [joinAfter_of_not_starts (by rw [ht]; rfl), firstFault_close _ ht, ht] at hf
    exact ((ih f).2 hf).mono (List.suffix_cons t ts).isInfix

theorem faultsBlame_of_lexed {depth : Nat} (h : Lexed limit depth ts)
    (hopened : opened.length = depth) : FaultsBlame limit opened ts := by
  induction h generalizing opened with
  | done => exact faultsBlame_nil (List.length_eq_zero_iff.1 hopened)
  | opening ht hdepth h ih =>
    subst hopened
    exact faultsBlame_opening ht hdepth (ih rfl)
  | closing ht h ih =>
    obtain ⟨l, opened, rfl⟩ := List.exists_cons_of_length_eq_add_one hopened
    exact faultsBlame_closing ht (ih (Nat.succ.inj hopened))
  | negation hn hnot hclosing h ih => exact faultsBlame_negation hn hnot hclosing (ih hopened)
  | word ht h ih => exact faultsBlame_word ht (ih hopened)
  | operator ht h ih => exact faultsBlame_operator ht (ih hopened)

end Stances

/-! ## Places -/

/-- What a text begins with when the token stands in front of it. -/
def Token.Begins (t : Token) (s : Text) : Prop :=
  match t.kind with
  | .opening => s.head? = some '('
  | .closing => s.head? = some ')'
  | .not => s.head? = some '-'
  | .word | .and | .or => s.head?.any isLetter ∧ t.spelling = s.takeWhile isLetter

/-- A token stands at its place in a text that starts at `position`. -/
def Token.StandsIn (t : Token) (position : Nat) (s : Text) : Prop :=
  ∃ before rest, s = before ++ rest ∧ t.position = position + before.length ∧ t.Begins rest

theorem Token.StandsIn.append {t : Token} {position : Nat} {s : Text} (w : Text)
    (h : t.StandsIn (position + w.length) s) : t.StandsIn position (w ++ s) := by
  obtain ⟨before, rest, rfl, hposition, hbegins⟩ := h
  refine ⟨w ++ before, rest, (List.append_assoc ..).symm, ?_, hbegins⟩
  rw [hposition, List.length_append, Nat.add_assoc]

theorem Token.Begins.standsIn {t : Token} {s : Text} (h : t.Begins s) : t.StandsIn t.position s :=
  ⟨[], s, rfl, rfl, h⟩

theorem standsIn_of_scans {limit : Int} {previous : Option Char} {position : Nat}
    {opened : List Nat} {s : Text} {ts : List Token}
    (h : Scans limit previous position opened s ts) :
    ∀ t ∈ ts, t.StandsIn position s := by
  induction h with
  | done => simp
  | @blank _ _ _ c _ _ hc h ih => exact fun t ht => (ih t ht).append [c]
  | @opening _ position _ _ _ hdepth h ih =>
    refine List.forall_mem_cons.2 ⟨Token.Begins.standsIn ?_, fun t ht => (ih t ht).append ['(']⟩
    rfl
  | @closing _ position _ _ _ _ h ih =>
    refine List.forall_mem_cons.2 ⟨Token.Begins.standsIn ?_, fun t ht => (ih t ht).append [')']⟩
    rfl
  | @negation _ position _ _ _ hprevious hnext h ih =>
    refine List.forall_mem_cons.2 ⟨Token.Begins.standsIn ?_, fun t ht => (ih t ht).append ['-']⟩
    rfl
  | @word _ position _ c run s _ hc hrun hs hhyphen h ih =>
    have hrest : ∀ t ∈ _, Token.StandsIn t position (c :: run ++ s) :=
      fun t ht => (ih t ht).append (c :: run)
    refine List.forall_mem_cons.2 ⟨Token.Begins.standsIn ?_, hrest⟩
    have hletters : ∀ d ∈ c :: run, isLetter d := List.forall_mem_cons.2 ⟨hc, hrun⟩
    have htake : (c :: run ++ s).takeWhile isLetter = c :: run := wordTail_append hletters hs
    rcases ofWord_cases (c :: run) with hk | hk | hk <;>
      · rw [Token.Begins, hk]
        exact ⟨hc, htake.symm⟩

theorem getElem?_append_cons (before : Text) (c : Char) (rest : Text) :
    (before ++ c :: rest)[before.length]? = some c := by
  rw [List.getElem?_append_right (Nat.le_refl _), Nat.sub_self]
  rfl

/-- The spelling of the token that a fault blames. An empty query has none to blame. -/
def Fault.blamed : Fault → Text
  | empty => []
  | unmatchedClosing _ => [')']
  | unmatchedOpening _ | tooDeep _ _ | emptyGroup _ | unclosed _ => ['(']
  | danglingNot _ => ['-']
  | expectedTerm t | missingOperand t | unexpected t => t.spelling

/-- The lexer's own faults blame a parenthesis or a `-`, which stands at their place. Here `before`
has been read, and its open groups stand at `opened`. -/
theorem exists_blamed_of_scan_error {limit : Int} {previous : Option Char} {position : Nat}
    {opened : List Nat} {s : Text} {f : Fault}
    (h : scan limit previous position opened s = .error f) (before : Text)
    (hposition : before.length = position) (hopened : ∀ p ∈ opened, (before ++ s)[p]? = some '(') :
    ∃ c, f.blamed = [c] ∧ (before ++ s)[f.position]? = some c ∧ (c = '(' ∨ c = ')' ∨ c = '-') := by
  -- `before` grows by what is read, so that positions in it are positions in the whole text
  fun_induction scan limit previous position opened s generalizing before with
  | case1 previous position opened p hp =>
    cases h
    exact ⟨_, rfl, hopened p (List.mem_of_getLast? hp), .inl rfl⟩
  | case2 => cases h
  | case3 previous position opened c s hc ih =>
    rw [List.append_cons] at hopened ⊢
    exact ih h (before ++ [c]) (by simp [hposition]) hopened
  | case4 previous position opened s =>
    cases h
    subst hposition
    exact ⟨_, rfl, getElem?_append_cons before _ s, .inl rfl⟩
  | case5 previous position opened s hdepth hblank ih =>
    have hopened' : ∀ p ∈ position :: opened, (before ++ '(' :: s)[p]? = some '(' :=
      List.forall_mem_cons.2 ⟨hposition ▸ getElem?_append_cons before _ s, hopened⟩
    rw [List.append_cons] at hopened' ⊢
    exact ih (map_eq_error h) (before ++ ['(']) (by simp [hposition]) hopened'
  | case6 previous position s =>
    cases h
    subst hposition
    exact ⟨_, rfl, getElem?_append_cons before _ s, .inr (.inl rfl)⟩
  | case7 previous position s p opened hblank hne ih =>
    have hopened := (List.forall_mem_cons.1 hopened).2
    rw [List.append_cons] at hopened ⊢
    exact ih (map_eq_error h) (before ++ [')']) (by simp [hposition]) hopened
  | case8 previous position opened c s hblank hl hr hdangling =>
    cases h
    subst hposition
    obtain ⟨rfl, -⟩ := hdangling
    exact ⟨_, rfl, getElem?_append_cons before _ s, .inr (.inr rfl)⟩
  | case9 previous position opened c s hblank hl hr hdangling hnegation ih =>
    rw [List.append_cons] at hopened ⊢
    exact ih (map_eq_error h) (before ++ [c]) (by simp [hposition]) hopened
  | case10 previous position opened c s hblank hl hr hdangling hnegation w ih =>
    have hsplit : before ++ c :: s = (before ++ w) ++ afterWord s := by
      rw [List.append_assoc, List.cons_append, wordTail_append_afterWord]
    rw [hsplit] at hopened ⊢
    exact ih (map_eq_error h) (before ++ w) (by simp [hposition]) hopened

theorem exists_char_of_scan_error {limit : Int} {previous : Option Char} {position : Nat}
    {opened : List Nat} {s : Text} {f : Fault}
    (h : scan limit previous position opened s = .error f) (before : Text)
    (hposition : before.length = position) (hopened : ∀ p ∈ opened, (before ++ s)[p]? = some '(') :
    f ≠ .empty ∧ ∃ c, (before ++ s)[f.position]? = some c ∧ (c = '(' ∨ c = ')' ∨ c = '-') := by
  obtain ⟨c, hblamed, hc, hkind⟩ := exists_blamed_of_scan_error h before hposition hopened
  refine ⟨?_, c, hc, hkind⟩
  rintro rfl
  cases hblamed

/-! ## Faults of a query -/

section Queries

variable {q : Text} {limit : Int} {ts : List Token} {f : Fault}

/-- A query is rejected by the lexer or by the parser. -/
theorem parse_eq_error_iff :
    parse q limit = .error f ↔ tokenize q limit = .error f ∨
      ∃ ts, tokenize q limit = .ok ts ∧ parseTokens (joinAdjacent ts) limit = .error f := by
  rw [parse, tokensOf]
  cases tokenize q limit with
  | error fault => simp [Functor.map, Except.map, bind, Except.bind]
  | ok ts => simp [Functor.map, Except.map, bind, Except.bind]

theorem scans_of_forall_isBlank (hq : ∀ c ∈ q, isBlank c) (previous : Option Char)
    (position : Nat) : Scans limit previous position [] q [] := by
  induction q generalizing previous position with
  | nil => exact .done
  | cons c q ih =>
    obtain ⟨hc, hq⟩ := List.forall_mem_cons.1 hq
    exact .blank hc (ih hq _ _)

/-- Only blanks make no tokens. -/
theorem tokenize_eq_nil_iff : tokenize q limit = .ok [] ↔ ∀ c ∈ q, isBlank c := by
  constructor
  · intro h c hc
    have hnil : Text.dropBlanks q = [] := (tiles_of_scans (scans_of_scan h)).flatMap_spelling.symm
    simpa using List.filter_eq_nil_iff.1 hnil c hc
  · exact fun hq => scan_of_scans (scans_of_forall_isBlank hq none 0)

/-- Faults of the parser blame tokens of the query, if it has any. -/
theorem blames_of_parseTokens (hts : tokenize q limit = .ok ts) (hne : ts ≠ [])
    (h : parseTokens (joinAdjacent ts) limit = .error f) : Blames ts f := by
  have hlexed : Lexed limit 0 ts := lexed_of_scans (scans_of_scan hts)
  rw [joinAdjacent_eq, parseTokens_eq_error_iff] at h
  exact (faultsBlame_of_lexed hlexed rfl f).1 (.operand none) ⟨rfl, hne⟩ h

theorem parse_eq_empty_iff : parse q limit = .error .empty ↔ ∀ c ∈ q, isBlank c := by
  rw [parse_eq_error_iff, ← @tokenize_eq_nil_iff q limit]
  constructor
  · rintro (h | ⟨ts, hts, h⟩)
    · exact absurd rfl (exists_char_of_scan_error h [] rfl (by simp)).1
    · by_cases hne : ts = []
      · rwa [← hne]
      · cases blames_of_parseTokens hts hne h
  · exact fun h => .inr ⟨[], h, parseTokens_eq_error_iff.2 rfl⟩

/-- No two tokens start at the same place. -/
theorem eq_of_position_eq (hts : tokenize q limit = .ok ts) {t u : Token} (ht : t ∈ ts)
    (hu : u ∈ ts) (h : t.position = u.position) : t = u := by
  have hpairwise := (tiles_of_scans (scans_of_scan hts)).pairwise_positions
  have hnodup : (ts.map Token.position).Nodup := List.pairwise_map.2 (hpairwise.imp Nat.ne_of_lt)
  exact List.inj_on_of_nodup_map hnodup ht hu h

/-- At place `p` of the query stands what a fault may blame: a parenthesis, a `-`, or the first
letter of an operator among the tokens. -/
def Blamable (limit : Int) (q : Text) (p : Nat) : Prop :=
  ∃ c, q[p]? = some c ∧ isBlank c = false ∧
    (c = '(' ∨ c = ')' ∨ c = '-' ∨ ∃ ts o, tokenize q limit = .ok ts ∧ o ∈ ts ∧
      (o.kind = .and ∨ o.kind = .or) ∧ o.position = p ∧ o.spelling = (q.drop p).takeWhile isLetter)

theorem blamable_of_mem (hts : tokenize q limit = .ok ts) {t : Token} (ht : t ∈ ts)
    (hk : t.kind ≠ .word) : Blamable limit q t.position := by
  obtain ⟨before, rest, hq, hposition, hbegins⟩ := standsIn_of_scans (scans_of_scan hts) t ht
  rw [Nat.zero_add] at hposition
  have hdrop : q.drop t.position = rest := by rw [hq, hposition, List.drop_left]
  have here : ∀ c, rest.head? = some c → q[t.position]? = some c := by
    intro c hc
    obtain ⟨s, rfl⟩ := List.head?_eq_some_iff.1 hc
    rw [hq, hposition, getElem?_append_cons]
  rw [Token.Begins] at hbegins
  cases hkind : t.kind with
  | word => exact absurd hkind hk
  | opening =>
    rw [hkind] at hbegins
    exact ⟨'(', here _ hbegins, by decide, .inl rfl⟩
  | closing =>
    rw [hkind] at hbegins
    exact ⟨')', here _ hbegins, by decide, .inr (.inl rfl)⟩
  | not =>
    rw [hkind] at hbegins
    exact ⟨'-', here _ hbegins, by decide, .inr (.inr (.inl rfl))⟩
  | and | or =>
    rw [hkind] at hbegins
    obtain ⟨hletter, hspelling⟩ := hbegins
    obtain ⟨c, hc, hletter⟩ := (Option.any_eq_true _ _).1 hletter
    refine ⟨c, here c hc, (isLetter_iff.1 hletter).1, .inr (.inr (.inr ?_))⟩
    exact ⟨ts, t, hts, ht, by simp [hkind], rfl, hdrop ▸ hspelling⟩

theorem Blames.blamable (h : Blames ts f) (hts : tokenize q limit = .ok ts) :
    Blamable limit q f.position := by
  cases h with
  | emptyGroup hl hr h =>
    exact blamable_of_mem hts (h.subset (List.mem_cons_self ..)) (by simp [hl])
  | danglingNot hn ho h =>
    exact blamable_of_mem hts (h.subset (List.mem_cons_self ..)) (by simp [hn])
  | missingOperand ho h | expectedTerm ho h =>
    exact blamable_of_mem hts h (by rcases ho with ho | ho <;> simp [ho])

/-- What the pass has written is no token of the query, so it is not blamed. -/
theorem Blames.ne_adjacency (h : Blames ts f) (hts : tokenize q limit = .ok ts) {u : Token}
    (hu : u ∈ ts) (hstarts : u.kind.startsOperand) :
    f ≠ .missingOperand u.adjacency ∧ f ≠ .expectedTerm u.adjacency := by
  -- the `AND` would stand where `u` stands, and no other token does
  have hmem : u.adjacency ∉ ts := by
    intro hmem
    have heq : u.adjacency = u := eq_of_position_eq hts hmem hu rfl
    rw [← heq] at hstarts
    cases hstarts
  constructor
  · rintro rfl
    cases h with
    | missingOperand ho h => exact hmem h
  · rintro rfl
    cases h with
    | expectedTerm ho h => exact hmem h

end Queries

/-- A query of blanks is empty, and no other one is. Behind the lexer, all other faults blame tokens
of the query, in one of four wordings, and nothing that the pass has written. So each fault of a
query that holds more than blanks, be it the lexer's or the parser's, leads to a character of it
that is no blank. -/
theorem faults_blame_tokens (q : Text) (limit : Int) :
    (parse q limit = .error .empty ↔ ∀ c ∈ q, isBlank c) ∧
    (∀ ts f, tokenize q limit = .ok ts → parseTokens (joinAdjacent ts) limit = .error f →
      f = .empty ∧ f.diagnosis = ⟨"Query is empty".toList, 0⟩ ∨
        Blames ts f ∧ Complains ts f.diagnosis ∧ ∀ u ∈ ts, u.kind.startsOperand →
          f ≠ .missingOperand u.adjacency ∧ f ≠ .expectedTerm u.adjacency) ∧
    ∀ f, parse q limit = .error f → (∃ c ∈ q, isBlank c = false) → Blamable limit q f.position := by
  refine ⟨parse_eq_empty_iff, fun ts f hts h => ?_, fun f h hq => ?_⟩
  · by_cases hne : ts = []
    · subst hne
      rw [parseTokens_eq_error_iff] at h
      obtain rfl := (Option.some.inj h).symm
      exact .inl ⟨rfl, rfl⟩
    · have hblames := blames_of_parseTokens hts hne h
      exact .inr ⟨hblames, hblames.complains, fun u hu hstarts =>
        hblames.ne_adjacency hts hu hstarts⟩
  · rcases parse_eq_error_iff.1 h with h | ⟨ts, hts, h⟩
    · obtain ⟨-, c, hc, hkind⟩ := exists_char_of_scan_error h [] rfl (by simp)
      refine ⟨c, hc, ?_, ?_⟩
      · rcases hkind with rfl | rfl | rfl <;> rfl
      · rcases hkind with hkind | hkind | hkind
        · exact .inl hkind
        · exact .inr (.inl hkind)
        · exact .inr (.inr (.inl hkind))
    -- a character that is no blank makes a token
    · have hne : ts ≠ [] := by
        rintro rfl
        obtain ⟨c, hc, hblank⟩ := hq
        rw [tokenize_eq_nil_iff.1 hts c hc] at hblank
        cases hblank
      exact (blames_of_parseTokens hts hne h).blamable hts

/-- A negation in front of an operator is blamed, and not the `AND` in front of its group. -/
theorem fault_of_negated_operator :
    let q := "a (-or b)".toList
    ∃ ts f, tokenize q 1 = .ok ts ∧ parse q 1 = .error f ∧ f.position = 3 ∧ Blames ts f ∧
      Blamable 1 q f.position := by
  intro q
  have hts : tokenize q 1 = .ok [⟨.word, ['a'], 0⟩, ⟨.opening, ['('], 2⟩, ⟨.not, ['-'], 3⟩,
      ⟨.or, ['o', 'r'], 4⟩, ⟨.word, ['b'], 7⟩, ⟨.closing, [')'], 8⟩] := by decide +kernel
  have hparse : parse q 1 = .error (.danglingNot 3) := by decide +kernel
  obtain ⟨-, hblames, hblamable⟩ := faults_blame_tokens q 1
  rcases parse_eq_error_iff.1 hparse with h | ⟨ts, hts', h⟩
  · cases hts.symm.trans h
  · obtain rfl := Except.ok.inj (hts.symm.trans hts')
    have hq : ∃ c ∈ q, isBlank c = false := ⟨'a', by decide, rfl⟩
    rcases hblames _ _ hts h with ⟨hempty, -⟩ | ⟨hf, -⟩
    · cases hempty
    · exact ⟨_, _, hts, hparse, rfl, hf, hblamable _ hparse hq⟩

end Headline.Query
