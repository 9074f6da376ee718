import Headline.Proofs.Descent

/-!
# The descent makes progress

Whatever the tokens and the limit are, the descent comes to its end, with what `parseTokens` says.
On its way it asks for no token behind the last one, a reader that returns has moved the cursor
since it was called, and no more bodies of groups are read inside one another than the limit allows.

The state stays `Sound` from one step to the next: what each waiting reader makes of the result that
it waits for is what it reads. Meanwhile the `potential` goes down: the calls that take no token
lead to tighter rules, and a token counts for more than all of these. And a step gives work to no
reader but one that it calls or one that has been waiting (`Leads`).
-/

namespace Headline.Query.Descent

open Headline.Query.Parser

variable {ts : List Token} {limit : Int}

/-! ## The cursor -/

section Cursor

variable {i : Nat} {t : Token} {k : TokenKind}

theorem drop_of_getElem? (h : ts[i]? = some t) : ts.drop i = t :: ts.drop (i + 1) := by
  obtain ⟨hi, rfl⟩ := List.getElem?_eq_some_iff.1 h
  exact List.drop_eq_getElem_cons hi

theorem lt_length_of_getElem? (h : ts[i]? = some t) : i < ts.length :=
  (List.getElem?_eq_some_iff.1 h).1

theorem drop_of_getElem?_eq_none (h : ts[i]? = none) : ts.drop i = [] :=
  List.drop_of_length_le (List.getElem?_eq_none_iff.1 h)

theorem kindAt_eq (ts : List Token) (i : Nat) :
    kindAt ts i = (ts.drop i).head?.map Token.kind := by
  rw [kindAt, List.head?_drop]

theorem exists_of_kindAt (h : kindAt ts i = some k) : ∃ t, ts[i]? = some t ∧ t.kind = k :=
  Option.map_eq_some_iff.1 h

theorem advance_of_getElem? (h : ts[i]? = some t) (next : Token → Nat → State) :
    advance ts i next = next t (i + 1) := by
  rw [advance, h]

end Cursor

/-! ## The readers that wait -/

/-- What becomes of the result of the outermost reader. -/
def conclude : Tree × List Token → Except Fault Tree
  | (tree, []) => .ok tree
  | (_, t :: _) => .error (.unexpected t)

theorem parseTokens_eq (ts : List Token) (limit : Int) :
    parseTokens ts limit =
      (reader limit limit.toNat (.chain .or) none).read ts >>= conclude := by
  show parseTokens ts limit = (expression limit limit.toNat none).read ts >>= conclude
  rw [parseTokens]
  cases (expression limit limit.toNat none).read ts with
  | error f => rfl
  | ok p =>
    obtain ⟨tree, rest⟩ := p
    cases rest <;> rfl

theorem parseTokens_nil (limit : Int) : parseTokens [] limit = .error .empty := by
  rw [parseTokens_eq, read_chain, Rule.operand, read_chain, Rule.operand,
    read_negation_of_ne (by simp)]
  rfl

/-- The readers on the stack wait for the call. Each of them was called no later than the one that
it waits for, and one level further out if it waits for the body of a group. What it reads is what
it makes of the result, and what the outermost one reads is the whole. -/
inductive Awaits (ts : List Token) (limit : Int) : Call → Stack → Prop
  | outermost {call : Call} (depth : call.depth = 0)
      (reading : parseTokens ts limit = call.reading ts limit >>= conclude) :
      Awaits ts limit call []
  | pending {call caller : Call} {p : Pending} {stack : Stack} (start : caller.start ≤ call.start)
      (depth : call.depth = caller.depth + p.bodies) (within : call.depth ≤ limit.toNat)
      (reading : caller.reading ts limit =
        call.reading ts limit >>= p.finish limit (limit.toNat - caller.depth))
      (awaits : Awaits ts limit caller stack) :
      Awaits ts limit call ((caller, p) :: stack)

namespace Awaits

variable {call : Call} {stack : Stack}

/-- A call stands inside of the bodies that are waited for. -/
theorem bodies_eq (h : Awaits ts limit call stack) : stack.bodies = call.depth := by
  induction h with
  | outermost depth => exact depth.symm
  | pending _ depth _ _ _ ih =>
    rw [Stack.bodies, ih, depth]
    exact Nat.add_comm ..

theorem depth_le (h : Awaits ts limit call stack) : call.depth ≤ limit.toNat := by
  cases h with
  | outermost depth => rw [depth]; exact Nat.zero_le _
  | pending _ _ within => exact within

theorem bodies_le (h : Awaits ts limit call stack) : (stack.bodies : Int) ≤ max limit 0 := by
  have := h.depth_le
  rw [h.bodies_eq]
  omega

/-- A fault of one reader is that of all that wait for it. -/
theorem parseTokens_eq_error (h : Awaits ts limit call stack) {f : Fault}
    (hf : call.reading ts limit = .error f) : parseTokens ts limit = .error f := by
  induction h with
  | outermost _ reading =>
    rw [reading, hf]
    rfl
  | pending _ _ _ reading _ ih =>
    refine ih ?_
    rw [reading, hf]
    rfl

end Awaits

/-! ## Sound states -/

/-- The cursor is inside of the tokens, a reader that returns has moved it, and what has been read
is what the readers make of the tokens. No overrun is sound. -/
inductive Sound (ts : List Token) (limit : Int) : State → Prop
  | enter {call : Call} {stack : Stack} (start : call.start ≤ ts.length)
      (group : call.rule = .group → call.start < ts.length) (awaits : Awaits ts limit call stack) :
      Sound ts limit (.enter call stack)
  | loop {c : Connective} {call : Call} {left : Tree} {cursor : Nat} {stack : Stack}
      (moved : call.start < cursor) (bound : cursor ≤ ts.length)
      (reading : call.reading ts limit =
        restOfChain limit (limit.toNat - call.depth) c left (ts.drop cursor))
      (awaits : Awaits ts limit call stack) :
      Sound ts limit (.loop c call left cursor stack)
  | leave {call : Call} {tree : Tree} {cursor : Nat} {stack : Stack}
      (moved : call.start < cursor) (bound : cursor ≤ ts.length)
      (reading : call.reading ts limit = .ok (tree, ts.drop cursor))
      (awaits : Awaits ts limit call stack) :
      Sound ts limit (.leave call tree cursor stack)
  | halted : Sound ts limit (.halted (parseTokens ts limit))

/-- The calls that a reader makes without taking a token lead down to tighter rules. -/
def Rule.weight : Rule → Nat
  | .chain .or => 17
  | .chain .and => 13
  | .negation => 9
  | .primary => 5
  | .group => 1

/-- How many steps there can be at most. A token counts for more than the rules from an expression
down to a group. -/
def potential (ts : List Token) : State → Nat
  | .enter call stack => 20 * (ts.length - call.start) + call.rule.weight + 3 * stack.length
  | .loop _ _ _ cursor stack => 20 * (ts.length - cursor) + 2 + 3 * stack.length
  | .leave _ _ cursor stack => 20 * (ts.length - cursor) + 1 + 3 * stack.length
  | .halted _ | .overrun => 0

/-- A sound state that is nearer to the end. -/
structure Onward (ts : List Token) (limit : Int) (s s' : State) : Prop where
  sound : Sound ts limit s'
  nearer : potential ts s' < potential ts s

/-! ## Steps -/

section Steps

variable {call : Call} {stack : Stack} {s : State}

theorem Awaits.onward_error (h : Awaits ts limit call stack) {f : Fault}
    (hf : call.reading ts limit = .error f) (hs : 0 < potential ts s) :
    Onward ts limit s (.halted (.error f)) := by
  refine ⟨?_, hs⟩
  rw [← h.parseTokens_eq_error hf]
  exact .halted

theorem potential_enter_pos (call : Call) (stack : Stack) :
    0 < potential ts (.enter call stack) := by
  have hweight : 0 < call.rule.weight := by
    rcases call.rule with ⟨_ | _⟩ | _ | _ | _ <;> decide
  rw [potential]
  omega

theorem potential_leave_pos (call : Call) (tree : Tree) (cursor : Nat) (stack : Stack) :
    0 < potential ts (.leave call tree cursor stack) := by
  rw [potential]
  omega

theorem operand_ne_group (c : Connective) : Rule.operand c ≠ .group := by
  cases c <;> decide

theorem weight_operand_lt (c : Connective) :
    (Rule.operand c).weight + 3 < (Rule.chain c).weight := by
  cases c <;> decide

theorem weight_operand_le (c : Connective) : (Rule.operand c).weight ≤ 13 := by
  cases c <;> decide

theorem onward_enterChain {c : Connective} (hrule : call.rule = .chain c)
    (hstart : call.start ≤ ts.length) (h : Awaits ts limit call stack) :
    Onward ts limit (.enter call stack)
      (.enter ⟨.operand c, call.start, call.depth, call.owner⟩ ((call, .first c) :: stack)) := by
  refine ⟨.enter hstart (fun hgroup => absurd hgroup (operand_ne_group c))
    (.pending (Nat.le_refl _) rfl h.depth_le ?_ h), ?_⟩
  · rw [Call.reading, hrule, read_chain]
    rfl
  · have := weight_operand_lt c
    simp only [potential, hrule, List.length_cons]
    omega

theorem onward_enterNegation (hrule : call.rule = .negation) (hstart : call.start ≤ ts.length)
    (h : Awaits ts limit call stack) :
    Onward ts limit (.enter call stack) (enterNegation ts call stack) := by
  rw [enterNegation]
  by_cases hnot : kindAt ts call.start = some .not
  · obtain ⟨t, ht, hkind⟩ := exists_of_kindAt hnot
    have hlt := lt_length_of_getElem? ht
    rw [if_pos hnot, advance_of_getElem? ht]
    by_cases hstarts : startsNegated (kindAt ts (call.start + 1))
    · rw [if_pos hstarts]
      refine ⟨.enter hlt (fun hgroup => by cases hgroup)
        (.pending (Nat.le_succ _) rfl h.depth_le ?_ h), ?_⟩
      · rw [kindAt_eq] at hstarts
        rw [Call.reading, hrule, drop_of_getElem? ht, read_negation_cons hkind _ hstarts]
        rfl
      -- a token has been passed, which makes up for the new frame
      · simp only [potential, hrule, Rule.weight, List.length_cons]
        omega
    · rw [if_neg hstarts]
      refine h.onward_error ?_ (potential_enter_pos call stack)
      rw [kindAt_eq] at hstarts
      rw [Call.reading, hrule, drop_of_getElem? ht, read_negation_dangling hkind _ hstarts]
  · rw [if_neg hnot]
    refine ⟨.enter hstart (fun hgroup => by cases hgroup)
      (.pending (Nat.le_refl _) rfl h.depth_le ?_ h), ?_⟩
    · rw [kindAt_eq] at hnot
      rw [Call.reading, hrule, read_negation_of_ne hnot, bind_pass]
      rfl
    -- no token has been passed, but the rule weighs less
    · simp only [potential, hrule, Rule.weight, List.length_cons]
      omega

theorem onward_enterPrimary (hrule : call.rule = .primary) (hstart : call.start ≤ ts.length)
    (h : Awaits ts limit call stack) :
    Onward ts limit (.enter call stack) (enterPrimary ts call stack) := by
  have hpos : 0 < potential ts (.enter call stack) := potential_enter_pos call stack
  rw [enterPrimary]
  cases ht : ts[call.start]? with
  | none =>
    refine h.onward_error ?_ hpos
    rw [Call.reading, hrule, drop_of_getElem?_eq_none ht]
    rfl
  | some t =>
    have hlt := lt_length_of_getElem? ht
    have hreading : call.reading ts limit =
        (reader limit (limit.toNat - call.depth) .primary call.owner).read
          (t :: ts.drop (call.start + 1)) := by
      rw [Call.reading, hrule, drop_of_getElem? ht]
    rw [read_primary_cons] at hreading
    dsimp only
    cases hkind : t.kind with
    | word =>
      rw [hkind] at hreading
      dsimp only
      rw [advance_of_getElem? ht]
      refine ⟨.leave (Nat.lt_succ_self _) hlt hreading h, ?_⟩
      simp only [potential, hrule, Rule.weight]
      omega
    | opening =>
      rw [hkind] at hreading
      refine ⟨.enter hstart (fun _ => hlt) (.pending (Nat.le_refl _) rfl h.depth_le ?_ h), ?_⟩
      · rw [hreading, bind_pass, Call.reading, drop_of_getElem? ht]
      · simp only [potential, hrule, Rule.weight, List.length_cons]
        omega
    | and | or | closing | not =>
      -- no operand starts here
      rw [hkind] at hreading
      exact h.onward_error hreading hpos

theorem onward_enterGroup (hrule : call.rule = .group) (hlt : call.start < ts.length)
    (h : Awaits ts limit call stack) :
    Onward ts limit (.enter call stack) (enterGroup ts limit call stack) := by
  have hpos : 0 < potential ts (.enter call stack) := potential_enter_pos call stack
  obtain ⟨t, ht⟩ : ∃ t, ts[call.start]? = some t := ⟨_, List.getElem?_eq_getElem hlt⟩
  have hdepth := h.depth_le
  rw [enterGroup, advance_of_getElem? ht]
  by_cases hdeep : limit < call.depth + 1
  -- no level is left, so the reader refuses the group as well
  · have hnone : limit.toNat - call.depth = 0 := by omega
    rw [if_pos hdeep]
    refine h.onward_error ?_ hpos
    rw [Call.reading, hrule, drop_of_getElem? ht, hnone]
    rfl
  · have hlevels : limit.toNat - call.depth = limit.toNat - (call.depth + 1) + 1 := by omega
    have hwithin : call.depth + 1 ≤ limit.toNat := by omega
    rw [if_neg hdeep]
    by_cases hempty : kindAt ts (call.start + 1) = some .closing
    · rw [if_pos hempty]
      refine h.onward_error ?_ hpos
      rw [kindAt_eq] at hempty
      rw [Call.reading, hrule, drop_of_getElem? ht, hlevels, read_group_empty t hempty]
    · rw [if_neg hempty]
      refine ⟨.enter hlt (fun hgroup => by cases hgroup)
        (.pending (Nat.le_succ _) rfl hwithin ?_ h), ?_⟩
      · rw [kindAt_eq] at hempty
        rw [Call.reading, hrule, drop_of_getElem? ht, hlevels, read_group t hempty]
        rfl
      · simp only [potential, hrule, Rule.weight, List.length_cons]
        omega

theorem onward_loop {c : Connective} {left : Tree} {cursor : Nat} (hmoved : call.start < cursor)
    (hbound : cursor ≤ ts.length)
    (hreading : call.reading ts limit =
      restOfChain limit (limit.toNat - call.depth) c left (ts.drop cursor))
    (h : Awaits ts limit call stack) :
    Onward ts limit (.loop c call left cursor stack) (loop ts c call left cursor stack) := by
  rw [loop]
  by_cases hkind : kindAt ts cursor = some c.kind
  · obtain ⟨t, ht, htkind⟩ := exists_of_kindAt hkind
    have hlt := lt_length_of_getElem? ht
    rw [if_pos hkind, advance_of_getElem? ht]
    refine ⟨.enter hlt (fun hgroup => absurd hgroup (operand_ne_group c))
      (.pending ?_ rfl h.depth_le ?_ h), ?_⟩
    · exact Nat.le_of_lt (Nat.lt_succ_of_lt hmoved)
    · rw [hreading, drop_of_getElem? ht, restOfChain_cons htkind]
      rfl
    · have := weight_operand_le c
      simp only [potential, List.length_cons]
      omega
  · rw [if_neg hkind]
    refine ⟨.leave hmoved hbound ?_ h, ?_⟩
    · rw [kindAt_eq] at hkind
      rw [hreading, restOfChain_of_ne hkind]
    · simp only [potential]
      omega

/-- The reader that waits goes on from the result as its own reading does. -/
theorem onward_resume {caller : Call} {p : Pending} {tree : Tree} {cursor : Nat}
    (hmoved : call.start < cursor) (hbound : cursor ≤ ts.length)
    (hreading : call.reading ts limit = .ok (tree, ts.drop cursor))
    (h : Awaits ts limit call ((caller, p) :: stack)) :
    Onward ts limit (.leave call tree cursor ((caller, p) :: stack))
      (resume ts caller tree cursor stack p) := by
  cases h with
  | pending hstart _ _ hcaller h =>
    -- since the caller started the cursor has moved on
    have hmoved : caller.start < cursor := Nat.lt_of_le_of_lt hstart hmoved
    rw [hreading] at hcaller
    -- each frame does with the tree what the reader goes on to do with it
    cases p with
    | first c | further c left =>
      refine ⟨.loop hmoved hbound hcaller h, ?_⟩
      simp only [resume, potential, List.length_cons]
      omega
    | negate | pass =>
      refine ⟨.leave hmoved hbound hcaller h, ?_⟩
      simp only [resume, potential, List.length_cons]
      omega
    | close opening =>
      rw [resume]
      by_cases hclosing : kindAt ts cursor = some .closing
      · obtain ⟨t, ht, hkind⟩ := exists_of_kindAt hclosing
        rw [if_pos hclosing, advance_of_getElem? ht]
        refine ⟨.leave (Nat.lt_succ_of_lt hmoved) (lt_length_of_getElem? ht) ?_ h, ?_⟩
        · rw [hcaller, drop_of_getElem? ht]
          exact if_pos hkind
        · simp only [potential, List.length_cons]
          omega
      · rw [if_neg hclosing]
        refine h.onward_error ?_ (potential_leave_pos ..)
        rw [hcaller]
        exact finish_close_of_ne (kindAt_eq ts cursor ▸ hclosing)

/-- The outermost reader returns: the descent is at its end. -/
theorem onward_outermost {tree : Tree} {cursor : Nat}
    (hreading : call.reading ts limit = .ok (tree, ts.drop cursor))
    (h : Awaits ts limit call []) :
    Onward ts limit (.leave call tree cursor []) (leave ts tree cursor []) := by
  have hresult : leave ts tree cursor [] = .halted (conclude (tree, ts.drop cursor)) := by
    rw [leave]
    cases ht : ts[cursor]? with
    | none => rw [drop_of_getElem?_eq_none ht]; rfl
    | some t => rw [drop_of_getElem? ht]; rfl
  cases h with
  | outermost _ hparse =>
    have hparse : parseTokens ts limit = conclude (tree, ts.drop cursor) := by
      rw [hparse, hreading]
      rfl
    rw [hresult, ← hparse]
    exact ⟨.halted, potential_leave_pos ..⟩

/-- **Step.** A sound state is the end, or the next one is sound as well and nearer to it. -/
theorem onward_step (h : Sound ts limit s) :
    s = .halted (parseTokens ts limit) ∨ Onward ts limit s (step ts limit s) := by
  cases h with
  | @enter call stack hstart hgroup h =>
    refine .inr ?_
    rw [step, enter]
    cases hrule : call.rule with
    | chain c => exact onward_enterChain hrule hstart h
    | negation => exact onward_enterNegation hrule hstart h
    | primary => exact onward_enterPrimary hrule hstart h
    | group => exact onward_enterGroup hrule (hgroup hrule) h
  | loop hmoved hbound hreading h => exact .inr (onward_loop hmoved hbound hreading h)
  | @leave call tree cursor stack hmoved hbound hreading h =>
    refine .inr ?_
    cases stack with
    | nil => exact onward_outermost hreading h
    | cons p stack => exact onward_resume hmoved hbound hreading h
  | halted => exact .inl rfl

end Steps

/-! ## Calls and returns -/

/-- The readers on a stack, each with those that wait for it in turn. -/
def Stack.readers : Stack → List (Call × Stack)
  | [] => []
  | (call, _) :: stack => (call, stack) :: Stack.readers stack

/-- The reader that is at work and those that wait. -/
def State.readers : State → List (Call × Stack)
  | .enter call stack | .loop _ call _ _ stack | .leave call _ _ stack =>
    (call, stack) :: stack.readers
  | .halted _ | .overrun => []

/-- Where a reader that is at work can get to: it calls another one and waits, it goes on by itself,
or the descent ends. -/
inductive Leads (call : Call) (stack : Stack) : State → Prop
  | calls (callee : Call) (p : Pending) : Leads call stack (.enter callee ((call, p) :: stack))
  | loops (c : Connective) (left : Tree) (cursor : Nat) :
      Leads call stack (.loop c call left cursor stack)
  | returns (tree : Tree) (cursor : Nat) : Leads call stack (.leave call tree cursor stack)
  | halts (result : Except Fault Tree) : Leads call stack (.halted result)
  | overruns : Leads call stack .overrun

namespace Leads

variable {call : Call} {stack : Stack}

theorem advance {cursor : Nat} {next : Token → Nat → State}
    (h : ∀ t cursor, Leads call stack (next t cursor)) :
    Leads call stack (Descent.advance ts cursor next) := by
  rw [Descent.advance]
  split
  · exact h ..
  · exact .overruns

theorem enter (call : Call) (stack : Stack) :
    Leads call stack (Descent.enter ts limit call stack) := by
  rw [Descent.enter]
  cases call.rule with
  | chain c => exact .calls ..
  | negation =>
    show Leads call stack (enterNegation ts call stack)
    rw [enterNegation]
    split
    · refine .advance fun t cursor => ?_
      split
      · exact .calls ..
      · exact .halts ..
    · exact .calls ..
  | primary =>
    show Leads call stack (enterPrimary ts call stack)
    rw [enterPrimary]
    cases ts[call.start]? with
    | none => exact .halts ..
    | some t =>
      dsimp only
      cases t.kind with
      | word => exact .advance fun t cursor => .returns ..
      | opening => exact .calls ..
      | and | or | closing | not => exact .halts ..
  | group =>
    refine .advance fun t cursor => ?_
    split
    · exact .halts ..
    · split
      · exact .halts ..
      · exact .calls ..

theorem loop (c : Connective) (call : Call) (left : Tree) (cursor : Nat) (stack : Stack) :
    Leads call stack (Descent.loop ts c call left cursor stack) := by
  rw [Descent.loop]
  split
  · exact .advance fun t cursor => .calls ..
  · exact .returns ..

theorem resume (call : Call) (tree : Tree) (cursor : Nat) (stack : Stack) (p : Pending) :
    Leads call stack (Descent.resume ts call tree cursor stack p) := by
  cases p with
  | first c | further c left => exact .loops ..
  | negate | pass => exact .returns ..
  | close opening =>
    rw [Descent.resume]
    split
    · exact .advance fun t cursor => .returns ..
    · exact .halts ..

/-- A reader that is not new has been there before. -/
theorem mem_readers {s : State} (h : Leads call stack s) {r : Call × Stack} (hr : r ∈ s.readers) :
    s = .enter r.1 r.2 ∨ r ∈ (call, stack) :: stack.readers := by
  cases h with
  | calls callee p =>
    rcases List.mem_cons.1 hr with rfl | hr
    · exact .inl rfl
    · exact .inr hr
  | loops | returns => exact .inr hr
  | halts | overruns => cases hr

end Leads

/-- A reader gets to work by a call only. -/
theorem mem_readers_step {s : State} {r : Call × Stack} (hr : r ∈ (step ts limit s).readers) :
    step ts limit s = .enter r.1 r.2 ∨ r ∈ s.readers := by
  cases s with
  | enter call stack => exact (Leads.enter call stack).mem_readers hr
  | loop c call left cursor stack => exact (Leads.loop c call left cursor stack).mem_readers hr
  | leave call tree cursor stack =>
    cases stack with
    | nil =>
      rw [step, leave] at hr
      split at hr <;> cases hr
    | cons p stack =>
      have hresume := (Leads.resume p.1 tree cursor stack p.2).mem_readers hr
      exact hresume.imp id (List.mem_cons_of_mem _)
  | halted | overrun => exact .inr hr

/-! ## Runs -/

theorem sound_start (ts : List Token) (limit : Int) : Sound ts limit (start ts) := by
  cases ts with
  | nil =>
    show Sound [] limit (.halted (.error .empty))
    rw [← parseTokens_nil limit]
    exact .halted
  | cons t ts =>
    refine .enter (Nat.zero_le _) (fun hgroup => ?_) (.outermost rfl (parseTokens_eq _ limit))
    cases hgroup

theorem potential_start_le (ts : List Token) : potential ts (start ts) ≤ 20 * ts.length + 17 := by
  rw [start]
  split <;> simp only [potential, Rule.weight, List.length_nil] <;> omega

theorem moment_succ (ts : List Token) (limit : Int) (n : Nat) :
    moment ts limit (n + 1) = step ts limit (moment ts limit n) :=
  Function.iterate_succ_apply' ..

theorem sound_moment (ts : List Token) (limit : Int) (n : Nat) :
    Sound ts limit (moment ts limit n) := by
  induction n with
  | zero => exact sound_start ts limit
  | succ n ih =>
    rw [moment_succ]
    rcases onward_step ih with hend | honward
    · rw [hend]
      exact .halted
    · exact honward.sound

/-- Whoever is at work, or waits, has been called. -/
theorem exists_enter {n : Nat} {r : Call × Stack} (hr : r ∈ (moment ts limit n).readers) :
    ∃ m ≤ n, moment ts limit m = .enter r.1 r.2 := by
  induction n with
  | zero =>
    refine ⟨0, Nat.le_refl _, ?_⟩
    have hr : r ∈ (start ts).readers := hr
    show start ts = _
    rw [start] at hr ⊢
    split at hr
    -- the reader is entered in this step, or it has been at work before
    · cases hr
    · next hts =>
      obtain rfl := List.mem_singleton.1 hr
      exact if_neg hts
  | succ n ih =>
    rw [moment_succ] at hr
    rcases mem_readers_step hr with hstep | hr
    · exact ⟨n + 1, Nat.le_refl _, hstep ▸ moment_succ ts limit n⟩
    · obtain ⟨m, hm, henter⟩ := ih hr
      exact ⟨m, Nat.le_succ_of_le hm, henter⟩

/-- Each step that is not the last one takes something off the potential. -/
theorem halted_or_potential_le (ts : List Token) (limit : Int) (n : Nat) :
    moment ts limit n = .halted (parseTokens ts limit) ∨
      potential ts (moment ts limit n) + n ≤ potential ts (start ts) := by
  induction n with
  | zero => exact .inr (Nat.le_refl _)
  | succ n ih =>
    rw [moment_succ]
    rcases onward_step (sound_moment ts limit n) with hend | honward
    · left
      rw [hend]
      rfl
    · rcases ih with hend | hle
      · left
        rw [hend]
        rfl
      · right
        have := honward.nearer
        omega

theorem exists_moment_eq_halted (ts : List Token) (limit : Int) :
    ∃ n ≤ potential ts (start ts), moment ts limit n = .halted (parseTokens ts limit) := by
  refine ⟨potential ts (start ts), Nat.le_refl _, ?_⟩
  rcases halted_or_potential_le ts limit (potential ts (start ts)) with hend | hle
  · exact hend
  · -- Nothing is left of the potential, and no state is nearer to the end than that.
    rcases onward_step (sound_moment ts limit (potential ts (start ts))) with hend | honward
    · exact hend
    · have := honward.nearer
      omega

theorem Sound.bodies_le {s : State} (h : Sound ts limit s) : (s.bodies : Int) ≤ max limit 0 := by
  cases h with
  | enter _ _ h | loop _ _ _ h | leave _ _ _ h => exact h.bodies_le
  | halted => exact Int.le_max_right ..

/-- The descent ends after a bounded number of steps. It never asks for a token behind the last one,
nor reads the bodies of more groups inside one another than the limit allows. A reader that returns
has been called, has taken a token since, and none behind the last one, as its reading says. -/
theorem descent_stays_in_bounds (ts : List Token) (limit : Int) :
    (∃ n ≤ 20 * ts.length + 17, moment ts limit n = .halted (parseTokens ts limit)) ∧
      ∀ n, moment ts limit n ≠ .overrun ∧ ((moment ts limit n).bodies : Int) ≤ max limit 0 ∧
        ∀ call tree cursor stack, moment ts limit n = .leave call tree cursor stack →
          (∃ m < n, moment ts limit m = .enter call stack) ∧
            call.start < cursor ∧ cursor ≤ ts.length ∧
              call.reading ts limit = .ok (tree, ts.drop cursor) := by
  refine ⟨?_, fun n => ⟨fun hoverrun => ?_, (sound_moment ts limit n).bodies_le, ?_⟩⟩
  -- who leaves is at work, so it has been entered, and not at the same moment
  · obtain ⟨n, hn, hend⟩ := exists_moment_eq_halted ts limit
    exact ⟨n, Nat.le_trans hn (potential_start_le ts), hend⟩
  · have hsound := sound_moment ts limit n
    rw [hoverrun] at hsound
    cases hsound
  · intro call tree cursor stack hleave
    have hwork : (call, stack) ∈ (moment ts limit n).readers := by
      rw [hleave]
      exact List.mem_cons_self
    obtain ⟨m, hm, henter⟩ := exists_enter hwork
    have hne : m ≠ n := by
      rintro rfl
      cases henter.symm.trans hleave
    have hsound := sound_moment ts limit n
    rw [hleave] at hsound
    cases hsound with
    | leave hmoved hbound hreading _ =>
      exact ⟨⟨m, Nat.lt_of_le_of_ne hm hne, henter⟩, hmoved, hbound, hreading⟩

/-- The tokens of `(a)`. -/
def bracketed : List Token := [⟨.opening, ['('], 0⟩, ⟨.word, ['a'], 1⟩, ⟨.closing, [')'], 2⟩]

/-- The group of `(a)` returns after fifteen steps, behind its last token. -/
theorem descent_through_brackets :
    ∃ stack, moment bracketed 1 15 = .leave ⟨.group, 0, 0, none⟩ (.word ['a']) 3 stack ∧
      (∃ m < 15, moment bracketed 1 m = .enter ⟨.group, 0, 0, none⟩ stack) ∧
        0 < 3 ∧ 3 ≤ bracketed.length ∧
          Call.reading bracketed 1 ⟨.group, 0, 0, none⟩ = .ok (.word ['a'], []) := by
  refine ⟨_, rfl, ?_⟩
  exact ((descent_stays_in_bounds bracketed 1).2 15).2.2 _ _ _ _ rfl

end Headline.Query.Descent
