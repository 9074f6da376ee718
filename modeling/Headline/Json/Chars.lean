import Headline.Json.Fault
import Headline.Text.Octets

/-!
# Strings in JSON

A string runs to its closing quote. Escapes name a character by a letter or by four hexadecimal
digits; control characters have to be escaped. Each step leaves a shorter text
(`length_lt_of_readChars`).
-/

namespace Headline.Json

/-- The value of a hexadecimal digit. -/
def hexValue? (c : Char) : Option Nat :=
  if c.isDigit then some (c.toNat - 48)
  else if 'a' ≤ c ∧ c ≤ 'f' then some (c.toNat - 87)
  else if 'A' ≤ c ∧ c ≤ 'F' then some (c.toNat - 55)
  else none

/-- Reads four hexadecimal digits, which must not end the text. -/
def readUnit (s : Text) : Except Fault (Nat × Text) :=
  match s with
  | a :: b :: c :: d :: e :: rest =>
    match [a, b, c, d].mapM hexValue? with
    | some ds => .ok (ds.foldl (fun n d => 16 * n + d) 0, e :: rest)
    | none => .error (.malformed .badUnicodeEscape (s.length + 1))
  | _ => .error (.malformed .badUnicodeEscape (s.length + 1))

/-- The first half of a character outside the basic plane. -/
def isLeading (unit : Nat) : Bool := 0xD800 ≤ unit && unit ≤ 0xDBFF

/-- The second half of such a character. -/
def isTrailing (unit : Nat) : Bool := 0xDC00 ≤ unit && unit ≤ 0xDFFF

/-- Reads the character of a numeric escape, after its `u`. Two escapes may name the halves of one
character; a half that stands alone is no character, and is read as the one that stands for it. -/
def readUnicodeEscape (s : Text) : Except Fault (Char × Text) := do
  let (unit, rest) ← readUnit s
  if isLeading unit then
    match rest with
    | '\\' :: 'u' :: more =>
      let (second, after) ← readUnit more
      if isTrailing second then
        return (Char.ofNat (0x10000 + (unit - 0xD800) * 0x400 + (second - 0xDC00)), after)
      else return (Text.ofHalf unit, rest)
    | _ => return (Text.ofHalf unit, rest)
  else if isTrailing unit then return (Text.ofHalf unit, rest)
  else return (Char.ofNat unit, rest)

/-- The character that a letter after a backslash stands for. -/
def plainEscape? : Char → Option Char
  | '"' => some '"'
  | '\\' => some '\\'
  | '/' => some '/'
  | 'b' => some '\x08'
  | 'f' => some '\x0c'
  | 'n' => some '\n'
  | 'r' => some '\r'
  | 't' => some '\t'
  | _ => none

/-- Reads an escape, after its backslash. `start` is what was left at the opening quote. -/
def readEscape (start : Nat) (s : Text) : Except Fault (Char × Text) :=
  match s with
  | [] => .error (.malformed .unterminatedString start)
  | 'u' :: rest => readUnicodeEscape rest
  | c :: rest =>
    match plainEscape? c with
    | some d => .ok (d, rest)
    | none => .error (.malformed .badEscape (s.length + 1))

theorem length_lt_of_readUnit {s rest : Text} {n : Nat} (h : readUnit s = .ok (n, rest)) :
    rest.length < s.length := by
  unfold readUnit at h
  split at h
  · split at h
    · simp only [Except.ok.injEq, Prod.mk.injEq] at h
      obtain ⟨-, rfl⟩ := h
      simp only [List.length_cons]
      omega
    · simp at h
  · simp at h

theorem length_lt_of_readUnicodeEscape {s rest : Text} {c : Char}
    (h : readUnicodeEscape s = .ok (c, rest)) : rest.length < s.length := by
  unfold readUnicodeEscape at h
  cases h₁ : readUnit s with
  | error f => simp [h₁, bind, Except.bind] at h
  | ok r =>
    obtain ⟨unit, rest₁⟩ := r
    have l₁ := length_lt_of_readUnit h₁
    simp only [h₁, bind, Except.bind, pure, Except.pure] at h
    split at h
    · split at h
      · next more =>
        cases h₂ : readUnit more with
        | error f => simp [h₂] at h
        | ok r =>
          have l₂ := length_lt_of_readUnit h₂
          simp only [h₂] at h
          simp only [List.length_cons] at l₁
          split at h <;>
          · simp only [Except.ok.injEq, Prod.mk.injEq] at h
            obtain ⟨-, rfl⟩ := h
            omega
      · simp only [Except.ok.injEq, Prod.mk.injEq] at h
        obtain ⟨-, rfl⟩ := h
        exact l₁
    · split at h <;>
      · simp only [Except.ok.injEq, Prod.mk.injEq] at h
        obtain ⟨-, rfl⟩ := h
        exact l₁

theorem length_lt_of_readEscape {start : Nat} {s rest : Text} {c : Char}
    (h : readEscape start s = .ok (c, rest)) : rest.length < s.length := by
  unfold readEscape at h
  split at h
  · simp at h
  · have := length_lt_of_readUnicodeEscape h
    simp only [List.length_cons]
    omega
  · split at h
    · simp only [Except.ok.injEq, Prod.mk.injEq] at h
      obtain ⟨-, rfl⟩ := h
      simp
    · simp at h

/-- Reads the characters of a string up to its closing quote. -/
def readChars (start : Nat) (s : Text) : Except Fault (Text × Text) :=
  match s with
  | [] => .error (.malformed .unterminatedString start)
  | c :: rest =>
    if c = '"' then .ok ([], rest)
    else if c = '\\' then
      match _h : readEscape start rest with
      | .error f => .error f
      | .ok (d, rest) =>
        match readChars start rest with
        | .error f => .error f
        | .ok (cs, rest) => .ok (d :: cs, rest)
    else if c.toNat < 0x20 then .error (.malformed .controlCharacter s.length)
    else
      match readChars start rest with
      | .error f => .error f
      | .ok (cs, rest) => .ok (c :: cs, rest)
termination_by s.length
decreasing_by
  · have := length_lt_of_readEscape _h
    simp only [List.length_cons]
    omega
  · simp

theorem length_lt_of_readChars {start : Nat} {s rest cs : Text}
    (h : readChars start s = .ok (cs, rest)) : rest.length < s.length := by
  fun_induction readChars start s generalizing cs rest with
  | case1 => simp at h
  | case2 => simp_all
  | case3 => simp at h
  | case4 => simp at h
  | case5 r d r₁ he cs₁ r₂ h₂ _ ih =>
    have := length_lt_of_readEscape he
    have := ih h₂
    simp only [Except.ok.injEq, Prod.mk.injEq] at h
    obtain ⟨-, rfl⟩ := h
    simp only [List.length_cons]
    omega
  | case6 => simp at h
  | case7 => simp at h
  | case8 c r _ _ _ cs₁ r₂ h₂ ih =>
    have := ih h₂
    simp only [Except.ok.injEq, Prod.mk.injEq] at h
    obtain ⟨-, rfl⟩ := h
    simp only [List.length_cons]
    omega

end Headline.Json
