import Headline.Proofs.Description
import Headline.Proofs.Recognition
import Mathlib.Logic.Function.Iterate

/-!
# The descent, call by call

The readers take tokens from the front of a list and call one another. Here they are the calls of a
machine: a cursor moves over the tokens, the readers that wait for one another stand on a stack, and
each step is a call, a turn of a loop or a return. A token that is asked for behind the last one
makes the machine overrun.

`Call.reading` is what the reader of a call makes of the tokens from its start on, and
`Pending.finish` what a waiting reader makes of the result that it waits for. The equations below
say how each reader goes on, as the machine does.
-/

namespace Headline.Query

/-- The operator between the operands of a chain. -/
def Connective.kind : Connective → TokenKind
  | and => .and
  | or => .or

namespace Descent

open Headline.Query.Parser

/-! ## The machine -/

/-- What a reader reads. A disjunction is a whole expression. -/
inductive Rule where
  | chain (c : Connective)
  | negation
  | primary
  | group
  deriving DecidableEq

/-- The operands of a disjunction are conjunctions, and those of a conjunction may be negated. -/
def Rule.operand : Connective → Rule
  | .or => chain .and
  | .and => negation

/-- A reader that has been called where the cursor is at `start`, inside of `depth` groups. -/
structure Call where
  rule : Rule
  start : Nat
  depth : Nat
  owner : Option Token

/-- What a reader is going to do with the tree that it waits for: take it as the first operand of a
chain, join it to the left part of one, negate it, hand it on, or close the group around it. -/
inductive Pending where
  | first (c : Connective)
  | further (c : Connective) (left : Tree)
  | negate
  | pass
  | close (opening : Token)

/-- The readers that wait for one another, innermost first. -/
abbrev Stack := List (Call × Pending)

/-- A moment of the descent: a reader is called, the loop of a chain comes round, or a reader
returns; or it has come to its end. -/
inductive State where
  | enter (call : Call) (stack : Stack)
  | loop (c : Connective) (call : Call) (left : Tree) (cursor : Nat) (stack : Stack)
  | leave (call : Call) (tree : Tree) (cursor : Nat) (stack : Stack)
  | halted (result : Except Fault Tree)
  | overrun

section Machine

variable (ts : List Token) (limit : Int)

/-- The kind of the token under the cursor. -/
def kindAt (cursor : Nat) : Option TokenKind := ts[cursor]?.map Token.kind

/-- Takes the token under the cursor and moves the cursor on. -/
def advance (cursor : Nat) (next : Token → Nat → State) : State :=
  match ts[cursor]? with
  | some t => next t (cursor + 1)
  | none => .overrun

/-- The start of a negation. -/
def enterNegation (call : Call) (stack : Stack) : State :=
  if kindAt ts call.start = some .not then
    advance ts call.start fun t cursor =>
      if startsNegated (kindAt ts cursor) then
        .enter ⟨.primary, cursor, call.depth, some t⟩ ((call, .negate) :: stack)
      else .halted (.error (.danglingNot t.position))
  else .enter ⟨.primary, call.start, call.depth, call.owner⟩ ((call, .pass) :: stack)

/-- The start of a word or a group. -/
def enterPrimary (call : Call) (stack : Stack) : State :=
  match ts[call.start]? with
  | none => .halted (.error (missing call.owner none))
  | some t =>
    match t.kind with
    | .word => advance ts call.start fun t cursor => .leave call (.word t.spelling) cursor stack
    | .opening => .enter ⟨.group, call.start, call.depth, none⟩ ((call, .pass) :: stack)
    | .and | .or => .halted (.error (.missingOperand t))
    | .closing => .halted (.error (missing call.owner (some t)))
    | .not => .halted (.error (.unexpected t))

/-- The start of a group. -/
def enterGroup (call : Call) (stack : Stack) : State :=
  advance ts call.start fun t cursor =>
    if limit < call.depth + 1 then .halted (.error (.tooDeep limit t.position))
    else if kindAt ts cursor = some .closing then .halted (.error (.emptyGroup t.position))
    else .enter ⟨.chain .or, cursor, call.depth + 1, some t⟩ ((call, .close t) :: stack)

/-- The start of a reader. -/
def enter (call : Call) (stack : Stack) : State :=
  match call.rule with
  | .chain c =>
    .enter ⟨.operand c, call.start, call.depth, call.owner⟩ ((call, .first c) :: stack)
  | .negation => enterNegation ts call stack
  | .primary => enterPrimary ts call stack
  | .group => enterGroup ts limit call stack

/-- The loop of a chain whose left part has been read. -/
def loop (c : Connective) (call : Call) (left : Tree) (cursor : Nat) (stack : Stack) : State :=
  if kindAt ts cursor = some c.kind then
    advance ts cursor fun t cursor =>
      .enter ⟨.operand c, cursor, call.depth, some t⟩ ((call, .further c left) :: stack)
  else .leave call left cursor stack

/-- A reader goes on with the tree that it has waited for. -/
def resume (call : Call) (tree : Tree) (cursor : Nat) (stack : Stack) : Pending → State
  | .first c => .loop c call tree cursor stack
  | .further c left => .loop c call (c.join left tree) cursor stack
  | .negate => .leave call (.not tree) cursor stack
  | .pass => .leave call tree cursor stack
  | .close t =>
    if kindAt ts cursor = some .closing then
      advance ts cursor fun _ cursor => .leave call tree cursor stack
    else .halted (.error (.unclosed t.position))

/-- A reader returns: to the one that waits for it, or as the last one of all. -/
def leave (tree : Tree) (cursor : Nat) : Stack → State
  | [] =>
    match ts[cursor]? with
    | none => .halted (.ok tree)
    | some t => .halted (.error (.unexpected t))
  | (call, pending) :: stack => resume ts call tree cursor stack pending

/-- One step of the descent. -/
def step : State → State
  | .enter call stack => enter ts limit call stack
  | .loop c call left cursor stack => loop ts c call left cursor stack
  | .leave _ tree cursor stack => leave ts tree cursor stack
  | .halted result => .halted result
  | .overrun => .overrun

/-- The descent starts with an expression, unless there are no tokens at all. -/
def start : State :=
  if ts = [] then .halted (.error .empty) else .enter ⟨.chain .or, 0, 0, none⟩ []

/-- The state of the descent after so many steps. -/
def moment (n : Nat) : State := (step ts limit)^[n] (start ts)

end Machine

/-- The group whose body a reader waits for, if it does. -/
def Pending.bodies : Pending → Nat
  | .close _ => 1
  | _ => 0

/-- How many bodies the readers on a stack wait for. -/
def Stack.bodies : Stack → Nat
  | [] => 0
  | (_, p) :: stack => p.bodies + Stack.bodies stack

/-- How many bodies of groups are being read inside one another. -/
def State.bodies : State → Nat
  | .enter _ stack | .loop _ _ _ _ stack | .leave _ _ _ stack => stack.bodies
  | .halted _ | .overrun => 0

/-! ## The readers of the calls -/

section Readers

variable (limit : Int) (levels : Nat)

/-- A group with its opening parenthesis. It is not called at the end of the tokens. -/
def wholeGroup : OperandReader := fun _ =>
  ⟨fun
    | [] => .error .empty
    | t :: ts => group limit (inner limit levels) t ts, by
    intro ts e rest h
    cases ts with
    | nil => cases h
    | cons t ts => exact Nat.lt_succ_of_lt (length_lt_of_group h)⟩

/-- The reader for a rule, with so many levels of groups left. -/
def reader : Rule → OperandReader
  | .chain .or => expression limit levels
  | .chain .and => conjunctionAt limit levels
  | .negation => negationAt limit levels
  | .primary => primaryAt limit levels
  | .group => wholeGroup limit levels

/-- The rest of a chain whose left part has been read. -/
def restOfChain (c : Connective) (left : Tree) (ts : List Token) :
    Except Fault (Tree × List Token) :=
  chainFrom c.kind c.join (reader limit levels (.operand c)) left ts

/-- What a waiting reader makes of a tree and of the tokens behind it. -/
def Pending.finish : Pending → Tree × List Token → Except Fault (Tree × List Token)
  | first c, (tree, rest) => restOfChain limit levels c tree rest
  | further c left, (tree, rest) => restOfChain limit levels c (c.join left tree) rest
  | negate, (tree, rest) => .ok (.not tree, rest)
  | pass, result => .ok result
  | close opening, (_, []) => .error (.unclosed opening.position)
  | close opening, (tree, t :: rest) =>
    if t.kind = .closing then .ok (tree, rest) else .error (.unclosed opening.position)

end Readers

/-- What the reader of a call makes of the tokens from its start on. -/
def Call.reading (ts : List Token) (limit : Int) (call : Call) : Except Fault (Tree × List Token) :=
  (reader limit (limit.toNat - call.depth) call.rule call.owner).read (ts.drop call.start)

theorem bind_pass (limit : Int) (levels : Nat) (result : Except Fault (Tree × List Token)) :
    result >>= Pending.pass.finish limit levels = result := by
  cases result <;> rfl

section Equations

variable {limit : Int} {levels : Nat} {owner : Option Token} {t : Token} {ts : List Token}

theorem read_chain (c : Connective) (owner : Option Token) (ts : List Token) :
    (reader limit levels (.chain c) owner).read ts =
      (reader limit levels (.operand c) owner).read ts >>=
        (Pending.first c).finish limit levels := by
  cases c with
  | and =>
    show readChain _ _ _ owner ts = _
    rw [readChain]
    show _ = (negationAt limit levels owner).read ts >>= _
    cases (negationAt limit levels owner).read ts <;> rfl
  | or =>
    show (expression limit levels owner).read ts = _
    rw [expression_eq]
    show readChain _ _ _ owner ts = (conjunctionAt limit levels owner).read ts >>= _
    rw [readChain]
    cases (conjunctionAt limit levels owner).read ts <;> rfl

theorem restOfChain_cons {c : Connective} (ht : t.kind = c.kind) (left : Tree) (ts : List Token) :
    restOfChain limit levels c left (t :: ts) =
      (reader limit levels (.operand c) (some t)).read ts >>=
        (Pending.further c left).finish limit levels := by
  rw [restOfChain, chainFrom, if_pos ht]
  split
  · next h =>
    rw [h]
    rfl
  · next h =>
    rw [h]
    rfl

theorem restOfChain_of_ne {c : Connective} (h : ts.head?.map Token.kind ≠ some c.kind)
    (left : Tree) : restOfChain limit levels c left ts = .ok (left, ts) := by
  refine chainFrom_of_ne fun t us hts ht => h ?_
  rw [hts, List.head?_cons, Option.map_some, ht]

theorem read_negation_cons (ht : t.kind = .not) (owner : Option Token)
    (h : startsNegated (ts.head?.map Token.kind)) :
    (reader limit levels .negation owner).read (t :: ts) =
      (reader limit levels .primary (some t)).read ts >>= Pending.negate.finish limit levels := by
  show readNegation _ owner (t :: ts) = (primaryAt limit levels (some t)).read ts >>= _
  rw [readNegation, if_pos ht, if_pos h]
  cases (primaryAt limit levels (some t)).read ts <;> rfl

theorem read_negation_dangling (ht : t.kind = .not) (owner : Option Token)
    (h : ¬ startsNegated (ts.head?.map Token.kind)) :
    (reader limit levels .negation owner).read (t :: ts) = .error (.danglingNot t.position) := by
  show readNegation _ owner (t :: ts) = _
  rw [readNegation, if_pos ht, if_neg h]

theorem read_negation_of_ne (h : ts.head?.map Token.kind ≠ some .not) (owner : Option Token) :
    (reader limit levels .negation owner).read ts =
      (reader limit levels .primary owner).read ts := by
  cases ts with
  | nil => rfl
  | cons t ts =>
    have ht : t.kind ≠ .not := fun ht => h (congrArg some ht)
    show readNegation _ owner (t :: ts) = _
    rw [readNegation, if_neg ht]
    rfl

theorem read_primary_cons (owner : Option Token) (t : Token) (ts : List Token) :
    (reader limit levels .primary owner).read (t :: ts) =
      match t.kind with
      | .word => .ok (.word t.spelling, ts)
      | .opening => (reader limit levels .group none).read (t :: ts)
      | .and | .or => .error (.missingOperand t)
      | .closing => .error (missing owner (some t))
      | .not => .error (.unexpected t) := rfl

/-- A body that follows its opening parenthesis at once is no body. -/
theorem read_group_empty (opening : Token) (h : ts.head?.map Token.kind = some .closing) :
    (reader limit (levels + 1) .group owner).read (opening :: ts) =
      .error (.emptyGroup opening.position) :=
  if_pos h

theorem read_group (opening : Token) (h : ts.head?.map Token.kind ≠ some .closing) :
    (reader limit (levels + 1) .group owner).read (opening :: ts) =
      (reader limit levels (.chain .or) (some opening)).read ts >>=
        (Pending.close opening).finish limit (levels + 1) := by
  show group limit (some (expression limit levels)) opening ts =
    (expression limit levels (some opening)).read ts >>= _
  rw [group, if_neg h]
  cases (expression limit levels (some opening)).read ts with
  | error f => rfl
  | ok p =>
    obtain ⟨tree, rest⟩ := p
    cases rest <;> rfl

theorem finish_close_of_ne {opening : Token} {tree : Tree}
    (h : ts.head?.map Token.kind ≠ some .closing) :
    (Pending.close opening).finish limit levels (tree, ts) =
      .error (.unclosed opening.position) := by
  cases ts with
  | nil => rfl
  | cons t ts => exact if_neg fun ht => h (congrArg some ht)

end Equations

end Descent

end Headline.Query
