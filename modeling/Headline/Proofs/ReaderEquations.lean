import Headline.Json.Reader

/-!
# Equations of the JSON readers

Each reader as readers in a row, in the monad of its faults. Arrays and objects share their form:
items with commas between them (`behindItem`) in a pair of brackets (`delimited`).
-/

namespace Headline.Json

/-! ## Strings -/

theorem readUnit_eq (s : Text) :
    readUnit s =
      match (s.take 4).mapM hexValue? with
      | none => .error (.malformed .badUnicodeEscape (s.length + 1))
      | some ds =>
        match s.drop 4 with
        | [] => .error (.malformed .badUnicodeEscape (s.length + 1))
        | c :: r => .ok (ds.foldl (fun n d => 16 * n + d) 0, c :: r) := by
  rcases s with _ | ⟨a, _ | ⟨b, _ | ⟨c, _ | ⟨d, _ | ⟨e, r⟩⟩⟩⟩⟩
  case cons.cons.cons.cons.cons =>
    simp only [readUnit, List.take, List.drop]
    cases [a, b, c, d].mapM hexValue? <;> rfl
  all_goals
    simp only [readUnit, List.take, List.drop]
    split <;> rfl

theorem readChars_cons (start : Nat) (c : Char) (s : Text) :
    readChars start (c :: s) =
      if c = '"' then .ok ([], s)
      else if c = '\\' then do
        let (d, r) ← readEscape start s
        let (cs, r) ← readChars start r
        return (d :: cs, r)
      else if c.toNat < 0x20 then .error (.malformed .controlCharacter (s.length + 1))
      else do
        let (cs, r) ← readChars start s
        return (c :: cs, r) := by
  rw [readChars]
  refine ite_congr rfl (fun _ => rfl) fun _ => ite_congr rfl (fun _ => ?_) fun _ =>
    ite_congr rfl (fun _ => rfl) fun _ => ?_
  · split
    · next he =>
      rw [he]
      rfl
    · next r he =>
      rw [he]
      show _ = readChars start r >>= _
      cases readChars start r <;> rfl
  · cases readChars start s <;> rfl

theorem readString_eq (s : Text) :
    readString s = do
      let (cs, rest) ← readChars (s.length + 1) s
      return (.string cs, rest) := by
  rw [readString]
  cases readChars (s.length + 1) s <;> rfl

/-! ## Arrays and objects -/

/-- Behind an item stands the end of the list, or a comma and more items. -/
def behindItem {α : Type} (closing : Char) (item : α) (more : Text → Except Fault (List α × Text))
    (s : Text) : Except Fault (List α × Text) :=
  if s.head? = some closing then .ok ([item], s.drop 1)
  else if s.head? = some ',' then do
    let (items, rest) ← more (s.drop 1)
    return (item :: items, rest)
  else .error (.malformed .expectingComma s.length)

/-- A list of items in its brackets, which may be empty. -/
def delimited {α : Type} (closing : Char) (make : List α → Value)
    (list : Text → Except Fault (List α × Text)) (s : Text) : Except Fault (Value × Text) :=
  if (skip s).head? = some closing then .ok (make [], (skip s).drop 1)
  else do
    let (items, rest) ← list (skip s)
    return (make items, rest)

theorem head?_ne_some {c : Char} {s : Text} (h : ∀ r, s = c :: r → False) :
    s.head? ≠ some c := fun hs =>
  have ⟨r, hr⟩ := List.head?_eq_some_iff.1 hs
  h r hr

theorem readElements_eq (item : ValueReader) (s : Text) :
    readElements item s = item.read s >>= fun p =>
      behindItem ']' p.1 (fun r => readElements item (skip r)) (skip p.2) := by
  rw [readElements]
  split
  · next hv =>
    rw [hv]
    rfl
  · next v r hv =>
    rw [hv]
    show _ = behindItem ']' v (fun r => readElements item (skip r)) (skip r)
    -- a bracket, a comma or something else behind the element decides how to go on
    split
    · next hr =>
      rw [hr]
      rfl
    · next more hr =>
      rw [hr]
      show _ = readElements item (skip more) >>= _
      cases readElements item (skip more) <;> rfl
    · next hend hcomma =>
      rw [behindItem, if_neg (head?_ne_some hend), if_neg (head?_ne_some hcomma)]

theorem readMembers_eq (item : ValueReader) (s : Text) :
    readMembers item s = readMember item s >>= fun p =>
      behindItem '}' p.1 (fun r => readMembers item (skip r)) (skip p.2) := by
  rw [readMembers]
  split
  · next hm =>
    rw [hm]
    rfl
  · next m r hm =>
    rw [hm]
    show _ = behindItem '}' m (fun r => readMembers item (skip r)) (skip r)
    split
    · next hr =>
      rw [hr]
      rfl
    · next more hr =>
      rw [hr]
      show _ = readMembers item (skip more) >>= _
      cases readMembers item (skip more) <;> rfl
    · next hend hcomma =>
      rw [behindItem, if_neg (head?_ne_some hend), if_neg (head?_ne_some hcomma)]

theorem readArray_eq (item : ValueReader) (s : Text) :
    readArray item s = delimited ']' .array (readElements item) s := by
  rw [readArray, delimited]
  split
  · next hr =>
    rw [hr]
    rfl
  · next hend =>
    rw [if_neg (head?_ne_some hend)]
    cases readElements item (skip s) <;> rfl

theorem readObject_eq (item : ValueReader) (s : Text) :
    readObject item s = delimited '}' .object (readMembers item) s := by
  rw [readObject, delimited]
  split
  · next hr =>
    rw [hr]
    rfl
  · next hend =>
    rw [if_neg (head?_ne_some hend)]
    cases readMembers item (skip s) <;> rfl

theorem readName_eq (s : Text) :
    readName s =
      if s.head? = some '"' then do
        let (name, r) ← readChars s.length (s.drop 1)
        if (skip r).head? = some ':' then return (name, (skip r).drop 1)
        else .error (.malformed .expectingColon (skip r).length)
      else .error (.malformed .expectingName s.length) := by
  cases s with
  | nil => rfl
  | cons c r =>
    by_cases hc : c = '"'
    · subst hc
      rw [readName, if_pos List.head?_cons]
      show _ = readChars _ r >>= _
      cases readChars ('"' :: r).length r with
      | error f => rfl
      | ok p =>
        show _ = if (skip p.2).head? = some ':' then _ else _
        dsimp only
        split
        · next hr =>
          rw [hr]
          rfl
        · next hcolon => rw [if_neg (head?_ne_some hcolon)]
    · rw [if_neg (by simpa using hc)]
      simp [readName, hc]

theorem readMember_eq (item : ValueReader) (s : Text) :
    readMember item s = do
      let (name, r) ← readName s
      let (v, rest) ← item.read (skip r)
      return ((name, v), rest) := by
  rw [readMember]
  cases readName s with
  | error f => rfl
  | ok p =>
    obtain ⟨name, r⟩ := p
    simp only [bind, Except.bind]
    cases item.read (skip r) <;> rfl

end Headline.Json
