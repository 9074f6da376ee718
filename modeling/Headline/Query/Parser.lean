import Headline.Query.Expr
import Headline.Query.Lexer
import Headline.Reader

/-!
# Parser

Recursive descent over tokens. `OR` binds loosest, then `AND`, both to the left, then one
negation, then words and groups. Each reader consumes a token, and the nesting of groups is
bounded by the number of levels that are left.
-/

namespace Headline.Query

/-- Reads a phrase from the front of a token list. -/
abbrev PhraseReader := Reader Token Fault Tree

/-- Reads an operand on behalf of its owner: the operator, negation or opening parenthesis that
demands it, if there is one. A missing operand is blamed on the owner. -/
abbrev OperandReader := Option Token → PhraseReader

namespace Parser

/-! ## Chains of one operator -/

/-- Continues a chain whose left part has been read. -/
def chainFrom (operator : TokenKind) (join : Tree → Tree → Tree) (operand : OperandReader)
    (left : Tree) : List Token → Except Fault (Tree × List Token)
  | [] => .ok (left, [])
  | t :: ts =>
    if t.kind = operator then
      match _h : (operand (some t)).read ts with
      | .error fault => .error fault
      | .ok (right, rest) => chainFrom operator join operand (join left right) rest
    else .ok (left, t :: ts)
termination_by ts => ts.length
decreasing_by
  have := (operand (some t)).shrinks _h
  simp only [List.length_cons]
  omega

theorem length_le_of_chainFrom {operator : TokenKind} {join : Tree → Tree → Tree}
    {operand : OperandReader} {left e : Tree} {ts rest : List Token}
    (h : chainFrom operator join operand left ts = .ok (e, rest)) : rest.length ≤ ts.length := by
  fun_induction chainFrom operator join operand left ts with
  | case1 => simp_all
  | case2 => simp at h
  | case3 left t ts _ right rest' hr ih =>
    have := (operand (some t)).shrinks hr
    have := ih h
    simp only [List.length_cons]
    omega
  | case4 => simp_all

/-- Reads one or more operands with `operator` between them, joined to the left. -/
def readChain (operator : TokenKind) (join : Tree → Tree → Tree) (operand : OperandReader)
    (owner : Option Token) (ts : List Token) : Except Fault (Tree × List Token) :=
  match (operand owner).read ts with
  | .error fault => .error fault
  | .ok (left, rest) => chainFrom operator join operand left rest

theorem length_lt_of_readChain {operator : TokenKind} {join : Tree → Tree → Tree}
    {operand : OperandReader} {owner : Option Token} {e : Tree} {ts rest : List Token}
    (h : readChain operator join operand owner ts = .ok (e, rest)) : rest.length < ts.length := by
  unfold readChain at h
  split at h
  · simp at h
  · next hl =>
    have := (operand owner).shrinks hl
    have := length_le_of_chainFrom h
    omega

/-- One or more operands with `operator` between them, joined to the left. -/
def chain (operator : TokenKind) (join : Tree → Tree → Tree) (operand : OperandReader) :
    OperandReader := fun owner =>
  ⟨readChain operator join operand owner, length_lt_of_readChain⟩

/-! ## Operands -/

/-- A group, after its opening parenthesis. `inner` reads the expression inside; without it there
is no level left. -/
def group (limit : Int) (inner : Option OperandReader) (opening : Token) (ts : List Token) :
    Except Fault (Tree × List Token) :=
  match inner with
  | none => .error (.tooDeep limit opening.position)
  | some inner =>
    if ts.head?.map Token.kind = some .closing then .error (.emptyGroup opening.position)
    else
      match (inner (some opening)).read ts with
      | .error fault => .error fault
      | .ok (e, t :: rest) =>
        if t.kind = .closing then .ok (e, rest) else .error (.unclosed opening.position)
      | .ok (_, []) => .error (.unclosed opening.position)

theorem length_lt_of_group {limit : Int} {inner : Option OperandReader} {opening : Token}
    {ts rest : List Token} {e : Tree} (h : group limit inner opening ts = .ok (e, rest)) :
    rest.length < ts.length := by
  cases inner with
  | none => simp [group] at h
  | some inner =>
    simp only [group] at h
    split at h
    · simp at h
    · split at h
      · simp at h
      · next e' t rest' hr =>
        have := (inner (some opening)).shrinks hr
        split at h
        · simp only [Except.ok.injEq, Prod.mk.injEq] at h
          obtain ⟨-, rfl⟩ := h
          simp only [List.length_cons] at this
          omega
        · simp at h
      · simp at h

/-- What to report when `found` stands where an operand is due. -/
def missing (owner : Option Token) (found : Option Token) : Fault :=
  match owner, found with
  | none, none => .empty
  | none, some t => .unexpected t
  | some o, _ => .expectedTerm o

/-- Reads a word or a group. -/
def readPrimary (limit : Int) (inner : Option OperandReader) (owner : Option Token) :
    List Token → Except Fault (Tree × List Token)
  | [] => .error (missing owner none)
  | t :: ts =>
    match t.kind with
    | .word => .ok (.word t.spelling, ts)
    | .opening => group limit inner t ts
    | .and | .or => .error (.missingOperand t)
    | .closing => .error (missing owner (some t))
    | .not => .error (.unexpected t)

theorem length_lt_of_readPrimary {limit : Int} {inner : Option OperandReader}
    {owner : Option Token} {ts rest : List Token} {e : Tree}
    (h : readPrimary limit inner owner ts = .ok (e, rest)) : rest.length < ts.length := by
  cases ts with
  | nil => simp [readPrimary] at h
  | cons t ts =>
    simp only [readPrimary] at h
    split at h
    · simp only [Except.ok.injEq, Prod.mk.injEq] at h
      obtain ⟨-, rfl⟩ := h
      simp
    · have := length_lt_of_group h
      simp only [List.length_cons]
      omega
    all_goals simp at h

/-- A word or a group. -/
def primary (limit : Int) (inner : Option OperandReader) : OperandReader := fun owner =>
  ⟨readPrimary limit inner owner, length_lt_of_readPrimary⟩

/-- Whether a negation has something to negate: the end, an operator and a closing parenthesis
are nothing. -/
def startsNegated : Option TokenKind → Bool
  | none | some .and | some .or | some .closing => false
  | _ => true

/-- Reads an operand, or a negation and its operand. -/
def readNegation (operand : OperandReader) (owner : Option Token) :
    List Token → Except Fault (Tree × List Token)
  | [] => (operand owner).read []
  | t :: ts =>
    if t.kind = .not then
      if startsNegated (ts.head?.map Token.kind) then
        match (operand (some t)).read ts with
        | .error fault => .error fault
        | .ok (e, rest) => .ok (.not e, rest)
      else .error (.danglingNot t.position)
    else (operand owner).read (t :: ts)

theorem length_lt_of_readNegation {operand : OperandReader} {owner : Option Token}
    {ts rest : List Token} {e : Tree} (h : readNegation operand owner ts = .ok (e, rest)) :
    rest.length < ts.length := by
  cases ts with
  | nil => exact (operand owner).shrinks h
  | cons t ts =>
    simp only [readNegation] at h
    split at h
    · split at h
      · split at h
        · simp at h
        · next hr =>
          have := (operand (some t)).shrinks hr
          simp only [Except.ok.injEq, Prod.mk.injEq] at h
          obtain ⟨-, rfl⟩ := h
          simp only [List.length_cons]
          omega
      · simp at h
    · exact (operand owner).shrinks h

/-- An operand that may be negated once. -/
def negation (operand : OperandReader) : OperandReader := fun owner =>
  ⟨readNegation operand owner, length_lt_of_readNegation⟩

/-! ## Expressions -/

/-- An expression whose groups are read by `inner`. -/
def expressionOver (limit : Int) (inner : Option OperandReader) : OperandReader :=
  chain .or .or (chain .and .and (negation (primary limit inner)))

/-- An expression with so many levels of groups left. -/
def expression (limit : Int) : (levels : Nat) → OperandReader
  | 0 => expressionOver limit none
  | levels + 1 => expressionOver limit (some (expression limit levels))

end Parser

/-- The tree of a whole token list whose groups nest at most `limit` deep. -/
def parseTokens (ts : List Token) (limit : Int) : Except Fault Tree :=
  match (Parser.expression limit limit.toNat none).read ts with
  | .error fault => .error fault
  | .ok (e, []) => .ok e
  | .ok (_, t :: _) => .error (.unexpected t)

/-- The tokens of a query, with conjunction made explicit. -/
def tokensOf (q : Text) (limit : Int) : Except Fault (List Token) :=
  joinAdjacent <$> tokenize q limit

/-- The tree of a query whose groups nest at most `limit` deep. -/
def parse (q : Text) (limit : Int) : Except Fault Tree :=
  tokensOf q limit >>= fun ts => parseTokens ts limit

/-- The tree of a query under the usual limit. -/
def compile (q : Text) : Except Fault Tree := parse q defaultDepth

end Headline.Query
