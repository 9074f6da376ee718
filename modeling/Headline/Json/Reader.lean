import Headline.Json.Chars
import Headline.Json.Scalar
import Headline.Reader

/-!
# Reading JSON

Recursive descent over characters. The recursion runs on the number of levels that arrays and
objects may nest; the number of opening brackets in the text is always enough.
-/

namespace Headline.Json

/-- White space between the parts of a JSON text. -/
def isSpace (c : Char) : Bool := c == ' ' || c == '\t' || c == '\n' || c == '\r'

/-- Drops white space at the front. -/
def skip (s : Text) : Text := s.dropWhile isSpace

theorem length_skip_le (s : Text) : (skip s).length ≤ s.length :=
  (List.dropWhile_sublist _).length_le

/-- Reads one value. -/
abbrev ValueReader := Reader Char Fault Value

/-! ## Arrays -/

/-- Reads the elements of an array up to its closing bracket, at least one. -/
def readElements (item : ValueReader) (s : Text) : Except Fault (List Value × Text) :=
  match _h : item.read s with
  | .error f => .error f
  | .ok (v, r) =>
    match _hr : skip r with
    | ']' :: rest => .ok ([v], rest)
    | ',' :: more =>
      match readElements item (skip more) with
      | .error f => .error f
      | .ok (vs, rest) => .ok (v :: vs, rest)
    | other => .error (.malformed .expectingComma other.length)
termination_by s.length
decreasing_by
  have h₁ := item.shrinks _h
  have h₂ := length_skip_le r
  have h₃ := length_skip_le more
  rw [_hr, List.length_cons] at h₂
  omega

theorem length_lt_of_readElements {item : ValueReader} {s rest : Text} {vs : List Value}
    (h : readElements item s = .ok (vs, rest)) : rest.length < s.length := by
  fun_induction readElements item s generalizing vs rest with
  | case1 => simp at h
  | case2 s v r hv rest' hr =>
    have h₁ := item.shrinks hv
    have h₂ := length_skip_le r
    rw [hr, List.length_cons] at h₂
    simp only [Except.ok.injEq, Prod.mk.injEq] at h
    obtain ⟨-, rfl⟩ := h
    omega
  | case3 => simp at h
  | case4 s v r hv more hr vs' rest' hm ih =>
    have h₁ := item.shrinks hv
    have h₂ := length_skip_le r
    have h₃ := length_skip_le more
    have h₄ := ih hm
    rw [hr, List.length_cons] at h₂
    simp only [Except.ok.injEq, Prod.mk.injEq] at h
    obtain ⟨-, rfl⟩ := h
    omega
  | case5 => simp at h

/-- Reads an array, after its opening bracket. -/
def readArray (item : ValueReader) (s : Text) : Except Fault (Value × Text) :=
  match skip s with
  | ']' :: rest => .ok (.array [], rest)
  | other =>
    match readElements item other with
    | .error f => .error f
    | .ok (vs, rest) => .ok (.array vs, rest)

theorem length_lt_of_readArray {item : ValueReader} {s rest : Text} {v : Value}
    (h : readArray item s = .ok (v, rest)) : rest.length < s.length := by
  have hs := length_skip_le s
  unfold readArray at h
  split at h
  · next hr =>
    rw [hr, List.length_cons] at hs
    simp only [Except.ok.injEq, Prod.mk.injEq] at h
    obtain ⟨-, rfl⟩ := h
    omega
  · split at h
    · simp at h
    · next hm =>
      have := length_lt_of_readElements hm
      simp only [Except.ok.injEq, Prod.mk.injEq] at h
      obtain ⟨-, rfl⟩ := h
      omega

/-! ## Objects -/

/-- Reads the name of a member and its colon. -/
def readName (s : Text) : Except Fault (Text × Text) :=
  match s with
  | '"' :: r =>
    match readChars s.length r with
    | .error f => .error f
    | .ok (name, r) =>
      match skip r with
      | ':' :: rest => .ok (name, rest)
      | other => .error (.malformed .expectingColon other.length)
  | _ => .error (.malformed .expectingName s.length)

theorem length_lt_of_readName {s rest name : Text} (h : readName s = .ok (name, rest)) :
    rest.length < s.length := by
  unfold readName at h
  split at h
  · split at h
    · simp at h
    · next r _ _ r' hc =>
      have h₁ := length_lt_of_readChars hc
      have h₂ := length_skip_le r'
      split at h
      · next hr =>
        rw [hr, List.length_cons] at h₂
        simp only [Except.ok.injEq, Prod.mk.injEq] at h
        obtain ⟨-, rfl⟩ := h
        simp only [List.length_cons]
        omega
      · simp at h
  · simp at h

/-- Reads a member of an object. -/
def readMember (item : ValueReader) (s : Text) : Except Fault ((Text × Value) × Text) :=
  match readName s with
  | .error f => .error f
  | .ok (name, r) =>
    match item.read (skip r) with
    | .error f => .error f
    | .ok (v, rest) => .ok ((name, v), rest)

theorem length_lt_of_readMember {item : ValueReader} {s rest : Text} {m : Text × Value}
    (h : readMember item s = .ok (m, rest)) : rest.length < s.length := by
  unfold readMember at h
  split at h
  · simp at h
  · next r hn =>
    have h₁ := length_lt_of_readName hn
    have h₂ := length_skip_le r
    split at h
    · simp at h
    · next hv =>
      have h₃ := item.shrinks hv
      simp only [Except.ok.injEq, Prod.mk.injEq] at h
      obtain ⟨-, rfl⟩ := h
      omega

/-- Reads the members of an object up to its closing brace, at least one. -/
def readMembers (item : ValueReader) (s : Text) : Except Fault (List (Text × Value) × Text) :=
  match _h : readMember item s with
  | .error f => .error f
  | .ok (m, r) =>
    match _hr : skip r with
    | '}' :: rest => .ok ([m], rest)
    | ',' :: more =>
      match readMembers item (skip more) with
      | .error f => .error f
      | .ok (ms, rest) => .ok (m :: ms, rest)
    | other => .error (.malformed .expectingComma other.length)
termination_by s.length
decreasing_by
  have h₁ := length_lt_of_readMember _h
  have h₂ := length_skip_le r
  have h₃ := length_skip_le more
  rw [_hr, List.length_cons] at h₂
  omega

theorem length_lt_of_readMembers {item : ValueReader} {s rest : Text} {ms : List (Text × Value)}
    (h : readMembers item s = .ok (ms, rest)) : rest.length < s.length := by
  fun_induction readMembers item s generalizing ms rest with
  | case1 => simp at h
  | case2 s v r hv rest' hr =>
    have h₁ := length_lt_of_readMember hv
    have h₂ := length_skip_le r
    rw [hr, List.length_cons] at h₂
    simp only [Except.ok.injEq, Prod.mk.injEq] at h
    obtain ⟨-, rfl⟩ := h
    omega
  | case3 => simp at h
  | case4 s v r hv more hr vs' rest' hm ih =>
    have h₁ := length_lt_of_readMember hv
    have h₂ := length_skip_le r
    have h₃ := length_skip_le more
    have h₄ := ih hm
    rw [hr, List.length_cons] at h₂
    simp only [Except.ok.injEq, Prod.mk.injEq] at h
    obtain ⟨-, rfl⟩ := h
    omega
  | case5 => simp at h

/-- Reads an object, after its opening brace. -/
def readObject (item : ValueReader) (s : Text) : Except Fault (Value × Text) :=
  match skip s with
  | '}' :: rest => .ok (.object [], rest)
  | other =>
    match readMembers item other with
    | .error f => .error f
    | .ok (ms, rest) => .ok (.object ms, rest)

theorem length_lt_of_readObject {item : ValueReader} {s rest : Text} {v : Value}
    (h : readObject item s = .ok (v, rest)) : rest.length < s.length := by
  have hs := length_skip_le s
  unfold readObject at h
  split at h
  · next hr =>
    rw [hr, List.length_cons] at hs
    simp only [Except.ok.injEq, Prod.mk.injEq] at h
    obtain ⟨-, rfl⟩ := h
    omega
  · split at h
    · simp at h
    · next hm =>
      have := length_lt_of_readMembers hm
      simp only [Except.ok.injEq, Prod.mk.injEq] at h
      obtain ⟨-, rfl⟩ := h
      omega

/-! ## Values -/

/-- Reads a string, after its opening quote. -/
def readString (s : Text) : Except Fault (Value × Text) :=
  match readChars (s.length + 1) s with
  | .error f => .error f
  | .ok (cs, rest) => .ok (.string cs, rest)

theorem length_lt_of_readString {s rest : Text} {v : Value} (h : readString s = .ok (v, rest)) :
    rest.length < s.length := by
  unfold readString at h
  split at h
  · simp at h
  · next hc =>
    have := length_lt_of_readChars hc
    simp only [Except.ok.injEq, Prod.mk.injEq] at h
    obtain ⟨-, rfl⟩ := h
    exact this

/-- Reads a value whose arrays and objects hold values that `inner` reads; without it they are too
deep. -/
def readOver (inner : Option ValueReader) (s : Text) : Except Fault (Value × Text) :=
  match s, inner with
  | '"' :: r, _ => readString r
  | '[' :: r, some inner => readArray inner r
  | '[' :: _, none => .error (.tooDeep .array)
  | '{' :: r, some inner => readObject inner r
  | '{' :: _, none => .error (.tooDeep .object)
  | s, _ => readScalar s

theorem length_lt_of_readOver {inner : Option ValueReader} {s rest : Text} {v : Value}
    (h : readOver inner s = .ok (v, rest)) : rest.length < s.length := by
  unfold readOver at h
  split at h
  · exact Nat.lt_succ_of_lt (length_lt_of_readString h)
  · exact Nat.lt_succ_of_lt (length_lt_of_readArray h)
  · simp at h
  · exact Nat.lt_succ_of_lt (length_lt_of_readObject h)
  · simp at h
  · exact length_lt_of_readScalar h

/-- Reads a value with so many levels of arrays and objects left. -/
def value : (levels : Nat) → ValueReader
  | 0 => ⟨readOver none, length_lt_of_readOver⟩
  | levels + 1 => ⟨readOver (some (value levels)), length_lt_of_readOver⟩

/-! ## Documents -/

/-- The number of brackets and braces that open something, which bounds the nesting. -/
def openings (s : Text) : Nat := s.countP fun c => c == '[' || c == '{'

/-- Reads a whole text that holds one value, with so many levels of arrays and objects. -/
def readDocument (levels : Nat) (s : Text) : Except Fault Value :=
  match (value levels).read (skip s) with
  | .error f => .error f
  | .ok (v, r) =>
    match skip r with
    | [] => .ok v
    | rest => .error (.malformed .extraData rest.length)

/-- The value of a whole text with so many levels at most. A byte order mark in front of it is
refused. -/
def parseWithin (levels : Nat) (s : Text) : Except Error Value :=
  if s.head? = some '\uFEFF' then .error (Fault.within s (.malformed .byteOrderMark s.length))
  else (readDocument levels s).mapError (Fault.within s)

/-- The value of a whole text, however deep it nests. -/
def parse (s : Text) : Except Error Value := parseWithin (openings s) s

end Headline.Json
