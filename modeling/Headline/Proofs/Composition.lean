import Headline.Proofs.Adjacency
import Headline.Proofs.Evaluation
import Headline.Proofs.Scan

/-!
# Composition of queries

A small logic of lexing: `Lexes limit previous depth s ts` says that `s`, wherever it stands, is
read to its end as the tokens `ts`, up to their positions and the spelling of operators. There is a
rule for each kind of step, and `lexes_before_closing` carries a scan of a whole query over to the
inside of a group. `parse_iff_derivation` and `parse_of_lexes` lead from tokens to trees.
-/

namespace Headline.Query

/-! ## From tokens to trees -/

/-- A query is parsed when the lenient grammar derives what its scan yields. -/
theorem parse_iff_derivation {q : Text} {limit : Int} {t : Tree} :
    parse q limit = .ok t ↔
      ∃ d : Derivation .optional .expression, Scans limit none 0 [] q d.tokens ∧ d.tree = t := by
  rw [parse, tokensOf]
  constructor
  · intro h
    cases hts : tokenize q limit with
    | error fault =>
      rw [hts] at h
      cases h
    | ok ts =>
      rw [hts] at h
      obtain ⟨d, rfl, htree, -⟩ := parseTokens_joinAdjacent_iff.1 h
      exact ⟨d, scans_of_scan hts, htree⟩
  · rintro ⟨d, hscan, htree⟩
    -- the nesting that the scan has checked is that of the derivation
    have hwithin := within_of_scans hscan
    rw [List.length_nil, Int.natCast_zero, Int.sub_zero, d.within_tokens_iff] at hwithin
    rw [tokenize, scan_of_scans hscan]
    exact parseTokens_joinAdjacent_iff.2 ⟨d, rfl, htree, hwithin⟩

/-- Behind `previous` and inside `depth` groups, `s` is read to its end as `ts`, as far as the
grammar can tell. -/
def Lexes (limit : Int) (previous : Option Char) (depth : Nat) (s : Text) (ts : List Token) :
    Prop :=
  ∀ (position : Nat) (opened : List Nat), opened.length = depth →
    ∃ us, Scans limit previous position opened s us ∧ us.map Token.sense = ts.map Token.sense

theorem parse_of_lexes {q : Text} {limit : Int} {d : Derivation .optional .expression}
    (h : Lexes limit none 0 q d.tokens) : parse q limit = .ok d.tree := by
  obtain ⟨us, hscan, hsense⟩ := h 0 [] rfl
  obtain ⟨d', rfl, htree, -⟩ := d.exists_optional_of_thins (.of_map_sense hsense.symm)
  exact parse_iff_derivation.2 ⟨d', hscan, htree⟩

theorem parse_of_lexes_conjunction {q : Text} {limit : Int} {c : Derivation .optional .conjunction}
    (h : Lexes limit none 0 q c.tokens) : parse q limit = .ok c.tree := by
  have htokens : (Derivation.expression c .noDisjunct).tokens = c.tokens := List.append_nil _
  rw [← htokens] at h
  exact parse_of_lexes h

/-! ## Rules -/

section Rules

variable {limit : Int} {previous : Option Char} {depth : Nat} {s : Text} {t : Token}
  {ts : List Token}

theorem lexes_nil : Lexes limit previous 0 [] [] := by
  intro position opened hopened
  obtain rfl := List.length_eq_zero_iff.1 hopened
  exact ⟨[], .done, rfl⟩

theorem lexes_blank {c : Char} (hc : isBlank c) (h : Lexes limit (some c) depth s ts) :
    Lexes limit previous depth (c :: s) ts := by
  intro position opened hopened
  obtain ⟨us, hscan, hsense⟩ := h (position + 1) opened hopened
  exact ⟨us, .blank hc hscan, hsense⟩

theorem lexes_opening (ht : t.kind = .opening) (hdepth : (depth : Int) + 1 ≤ limit)
    (h : Lexes limit (some '(') (depth + 1) s ts) :
    Lexes limit previous depth ('(' :: s) (t :: ts) := by
  rintro position opened rfl
  obtain ⟨us, hscan, hsense⟩ := h (position + 1) (position :: opened) rfl
  refine ⟨_, .opening hdepth hscan, ?_⟩
  simp [hsense, Token.sense, ht]

theorem lexes_closing (ht : t.kind = .closing) (h : Lexes limit (some ')') depth s ts) :
    Lexes limit previous (depth + 1) (')' :: s) (t :: ts) := by
  intro position opened hopened
  obtain ⟨p, opened, rfl⟩ := List.exists_cons_of_length_eq_add_one hopened
  obtain ⟨us, hscan, hsense⟩ := h (position + 1) opened (Nat.succ.inj hopened)
  refine ⟨_, .closing hscan, ?_⟩
  simp [hsense, Token.sense, ht]

theorem lexes_negation (ht : t.kind = .not) (hprevious : startsTerm previous)
    (hnext : Hyphen.before s.head? = .negation) (h : Lexes limit (some '-') depth s ts) :
    Lexes limit previous depth ('-' :: s) (t :: ts) := by
  intro position opened hopened
  obtain ⟨us, hscan, hsense⟩ := h (position + 1) opened hopened
  refine ⟨_, .negation hprevious hnext hscan, ?_⟩
  simp [hsense, Token.sense, ht]

theorem lexes_word (c : Char) (run : Text) (ht : t.kind = .ofWord (c :: run))
    (hspelling : t.spelling = c :: run) (hc : isLetter c) (hrun : ∀ d ∈ run, isLetter d)
    (hs : EndsWord s)
    (hhyphen : c = '-' → startsTerm previous → Hyphen.before (run ++ s).head? = .letter)
    (h : Lexes limit (c :: run).getLast? depth s ts) :
    Lexes limit previous depth (c :: (run ++ s)) (t :: ts) := by
  intro position opened hopened
  obtain ⟨us, hscan, hsense⟩ := h (position + (c :: run).length) opened hopened
  refine ⟨_, .word hc hrun hs hhyphen hscan, ?_⟩
  simp [hsense, Token.sense, ht, hspelling]

/-- A word between two blanks, which starts with no `-`. -/
theorem lexes_spaced_word (c : Char) (run : Text) (ht : t.kind = .ofWord (c :: run))
    (hspelling : t.spelling = c :: run) (hletters : (c :: run).all isLetter) (hne : c ≠ '-')
    (h : Lexes limit (some ' ') depth s ts) :
    Lexes limit previous depth (' ' :: c :: (run ++ ' ' :: s)) (t :: ts) := by
  obtain ⟨hc, hrun⟩ := List.forall_mem_cons.1 (List.all_eq_true.1 hletters)
  have hrest : Lexes limit (c :: run).getLast? depth (' ' :: s) ts := lexes_blank rfl h
  have hs : EndsWord (' ' :: s) := endsWord_cons (by decide)
  exact lexes_blank rfl
    (lexes_word c run ht hspelling hc hrun hs (fun hhyphen => absurd hhyphen hne) hrest)

end Rules

/-! ## Inside a group -/

/-- What a `-` looks at is not what stands behind the text that follows it. -/
theorem before_append {s rest : Text} {k : Hyphen} (hk : k ≠ .dangling)
    (h : Hyphen.before s.head? = k) : Hyphen.before (s ++ rest).head? = k := by
  cases s with
  | nil => exact absurd h.symm hk
  | cons c s => exact h

theorem endsWord_append_closing {s : Text} (h : EndsWord s) (rest : Text) :
    EndsWord (s ++ ')' :: rest) := by
  cases s with
  | nil => exact endsWord_cons (by decide)
  | cons c s => exact endsWord_cons (h c s rfl)

theorem within_of_other_append {limit : Int} {s t : Text} (hs : ∀ c ∈ s, c ≠ '(' ∧ c ≠ ')')
    (h : textBrackets.Within limit (s ++ t)) : textBrackets.Within limit t := by
  have ht := (Brackets.within_append.1 h).2
  rwa [height_text_of_other hs, Int.sub_zero] at ht

theorem ne_paren_of_isBlank {c : Char} (hc : isBlank c) : c ≠ '(' ∧ c ≠ ')' := by
  constructor
  · rintro rfl
    exact absurd hc (by decide)
  · rintro rfl
    exact absurd hc (by decide)

/-- What is scanned to its end can be scanned in front of a `)` that closes a group around it,
unless it nests too deep there. -/
theorem lexes_before_closing {limit limit' : Int} {previous previous' : Option Char}
    {position depth : Nat} {opened : List Nat} {s rest : Text} {ts us : List Token} {r : Token}
    (h : Scans limit previous position opened s ts)
    (hprevious : startsTerm previous' = startsTerm previous)
    (hwithin : textBrackets.Within (limit' - (depth + opened.length + 1 : Nat)) s)
    (hr : r.kind = .closing) (hrest : Lexes limit' (some ')') depth rest us) :
    Lexes limit' previous' (depth + opened.length + 1) (s ++ ')' :: rest) (ts ++ r :: us) := by
  induction h generalizing previous' with
  | done => exact lexes_closing hr hrest
  | @blank _ _ _ c _ _ hc h ih =>
    have hnone : ∀ d ∈ [c], d ≠ '(' ∧ d ≠ ')' := by
      intro d hd
      obtain rfl := List.mem_singleton.1 hd
      exact ne_paren_of_isBlank hc
    exact lexes_blank hc (ih rfl (within_of_other_append hnone hwithin))
  | @opening _ _ opened _ _ hdepth h ih =>
    rw [Brackets.within_cons, Brackets.height_singleton_opens rfl rfl] at hwithin
    obtain ⟨hopen, hinside⟩ := hwithin
    -- the group around it takes up one level of the limit
    have hlimit := hopen rfl
    refine lexes_opening rfl (by omega) (ih rfl (hinside.mono ?_))
    simp only [List.length_cons]
    omega
  | @closing _ _ _ opened _ _ h ih =>
    rw [Brackets.within_cons, Brackets.height_singleton_closes rfl rfl] at hwithin
    refine lexes_closing rfl (ih rfl (hwithin.2.mono ?_))
    simp only [List.length_cons]
    omega
  | negation hstart hnext h ih =>
    have hnone : ∀ d ∈ ['-'], d ≠ '(' ∧ d ≠ ')' := by simp
    refine lexes_negation rfl (hprevious.trans hstart) (before_append (by decide) hnext) ?_
    exact ih rfl (within_of_other_append hnone hwithin)
  | @word _ _ _ c run s _ hc hrun hs hhyphen h ih =>
    have hletters : ∀ d ∈ c :: run, isLetter d := List.forall_mem_cons.2 ⟨hc, hrun⟩
    have hnone : ∀ d ∈ c :: run, d ≠ '(' ∧ d ≠ ')' :=
      fun d hd => (isLetter_iff.1 (hletters d hd)).2
    have hafter := ih rfl (within_of_other_append hnone hwithin)
    rw [List.cons_append, List.append_assoc]
    refine lexes_word c run rfl rfl hc hrun (endsWord_append_closing hs rest) ?_ hafter
    -- the scan looks past a hyphen, and the parenthesis behind the group changes nothing there
    intro hcd hstart
    rw [← List.append_assoc]
    exact before_append (by decide) (hhyphen hcd (hprevious.symm.trans hstart))

/-- A query in parentheses. -/
def grouped (q : Text) : Text := '(' :: (q ++ [')'])

/-- In parentheses a query is an operand, whatever stands around it. -/
theorem exists_primary_of_parse {limit : Int} {q : Text} {t : Tree} (h : parse q limit = .ok t)
    (hlimit : 1 ≤ limit) (hwithin : textBrackets.Within (limit - 1) q) :
    ∃ p : Derivation .optional .primary, p.tree = t ∧
      ∀ previous rest us, Lexes limit (some ')') 0 rest us →
        Lexes limit previous 0 (grouped q ++ rest) (p.tokens ++ us) := by
  obtain ⟨d, hscan, htree⟩ := parse_iff_derivation.1 h
  let l : Token := ⟨.opening, ['('], 0⟩
  let r : Token := ⟨.closing, [')'], 0⟩
  refine ⟨.group l rfl d r rfl, htree, fun previous rest us hrest => ?_⟩
  have hinside : Lexes limit (some '(') 1 (q ++ ')' :: rest) (d.tokens ++ r :: us) :=
    lexes_before_closing hscan rfl hwithin rfl hrest
  have hgroup : Lexes limit previous 0 ('(' :: (q ++ ')' :: rest)) (l :: (d.tokens ++ r :: us)) :=
    lexes_opening rfl hlimit hinside
  simpa [grouped, Derivation.tokens] using hgroup

/-! ## Composition -/

/-- Queries compose: in parentheses they can be negated, and joined by nothing, by a blank, by `AND`
or by `OR`. The result means what its parts mean. -/
theorem compile_composes {q₁ q₂ : Text} {r₁ r₂ : Tree} (h₁ : compile q₁ = .ok r₁)
    (h₂ : compile q₂ = .ok r₂) (hwithin₁ : textBrackets.Within (defaultDepth - 1) q₁)
    (hwithin₂ : textBrackets.Within (defaultDepth - 1) q₂) :
    compile (grouped q₁) = .ok r₁ ∧
    compile ('-' :: grouped q₁) = .ok (.not r₁) ∧
    compile (grouped q₁ ++ " ".toList ++ grouped q₂) = .ok (.and r₁ r₂) ∧
    compile (grouped q₁ ++ grouped q₂) = .ok (.and r₁ r₂) ∧
    compile (grouped q₁ ++ " AND ".toList ++ grouped q₂) = .ok (.and r₁ r₂) ∧
    compile (grouped q₁ ++ " OR ".toList ++ grouped q₂) = .ok (.or r₁ r₂) ∧
    ∀ text,
      Tree.accepts (.not r₁) text = !r₁.accepts text ∧
      Tree.accepts (.and r₁ r₂) text = (r₁.accepts text && r₂.accepts text) ∧
      Tree.accepts (.or r₁ r₂) text = (r₁.accepts text || r₂.accepts text) := by
  obtain ⟨p₁, rfl, first⟩ := exists_primary_of_parse h₁ (by decide) hwithin₁
  obtain ⟨p₂, rfl, second⟩ := exists_primary_of_parse h₂ (by decide) hwithin₂
  -- a group is read alike behind anything and in front of anything
  have alone : ∀ previous, Lexes defaultDepth previous 0 (grouped q₁) p₁.tokens := by
    intro previous
    simpa using first previous [] [] lexes_nil
  have last : ∀ previous, Lexes defaultDepth previous 0 (grouped q₂) p₂.tokens := by
    intro previous
    simpa using second previous [] [] lexes_nil
  have spaced : Lexes defaultDepth (some ')') 0 (' ' :: grouped q₂) p₂.tokens :=
    lexes_blank rfl (last _)
  -- trees know no positions, so those of the tokens between the groups are of no account
  let n : Token := ⟨.not, ['-'], 0⟩
  let a : Token := ⟨.and, "AND".toList, 0⟩
  let o : Token := ⟨.or, "OR".toList, 0⟩
  have negated : Lexes defaultDepth none 0 ('-' :: grouped q₁) (n :: p₁.tokens) :=
    lexes_negation rfl rfl rfl (alone _)
  have behindAnd : Lexes defaultDepth (some ')') 0 (" AND ".toList ++ grouped q₂)
      (a :: p₂.tokens) :=
    lexes_spaced_word 'A' ['N', 'D'] (by decide) rfl rfl (by decide) (last _)
  have behindOr : Lexes defaultDepth (some ')') 0 (" OR ".toList ++ grouped q₂) (o :: p₂.tokens) :=
    lexes_spaced_word 'O' ['R'] (by decide) rfl rfl (by decide) (last _)
  refine ⟨?_, ?_, ?_, ?_, ?_, ?_, fun text => ⟨?_, ?_, ?_⟩⟩
  · exact parse_of_lexes_conjunction (c := .conjunction (.plain p₁) .noConjunct)
      (by simpa [Derivation.tokens] using alone none)
  · exact parse_of_lexes_conjunction (c := .conjunction (.negated n rfl p₁) .noConjunct)
      (by simpa [Derivation.tokens] using negated)
  · exact parse_of_lexes_conjunction
      (c := .conjunction (.plain p₁) (.adjacent rfl (.plain p₂) .noConjunct))
      (by simpa [Derivation.tokens] using first none _ _ spaced)
  · exact parse_of_lexes_conjunction
      (c := .conjunction (.plain p₁) (.adjacent rfl (.plain p₂) .noConjunct))
      (by simpa [Derivation.tokens] using first none _ _ (last _))
  · exact parse_of_lexes_conjunction
      (c := .conjunction (.plain p₁) (.and a rfl (.plain p₂) .noConjunct))
      (by simpa [Derivation.tokens] using first none _ _ behindAnd)
  · exact parse_of_lexes (d := .expression (.conjunction (.plain p₁) .noConjunct)
      (.or o rfl (.conjunction (.plain p₂) .noConjunct) .noDisjunct))
      (by simpa [Derivation.tokens] using first none _ _ behindOr)
  · exact Tree.accepts_not text _
  · exact Tree.accepts_and text _ _
  · exact Tree.accepts_or text _ _

/-- A negated word and a group, whose first characters look at what stands in front of them. -/
theorem compile_negated_groups :
    compile "-(-a)".toList = .ok (.not (.not (.word ['a']))) ∧
      compile "(-a)((b))".toList = .ok (.and (.not (.word ['a'])) (.word ['b'])) := by
  have h₁ : compile "-a".toList = .ok (.not (.word ['a'])) := by decide +kernel
  have h₂ : compile "(b)".toList = .ok (.word ['b']) := by decide +kernel
  have hwithin₁ : textBrackets.Within (defaultDepth - 1) "-a".toList :=
    Brackets.within_of_forall_not_opens (by simp [textBrackets])
  have hwithin₂ : textBrackets.Within (defaultDepth - 1) "(b)".toList := by
    simp [Brackets.within_cons, Brackets.height, textBrackets, defaultDepth]
  obtain ⟨-, hnegated, -, hadjacent, -⟩ := compile_composes h₁ h₂ hwithin₁ hwithin₂
  exact ⟨hnegated, hadjacent⟩

end Headline.Query
