import Headline.Text.Basic

/-!
# Blanks, words and trimming

Twenty-nine characters count as blank: the white space of Unicode together with the four ASCII
information separators. `words` cuts a text into its maximal runs of other characters.
-/

namespace Headline

/-- White space and the ASCII separators U+001C to U+001F. -/
def isBlank (c : Char) : Bool :=
  let n := c.toNat
  (0x09 ≤ n && n ≤ 0x0D) || (0x1C ≤ n && n ≤ 0x20) || n == 0x85 || n == 0xA0 || n == 0x1680
    || (0x2000 ≤ n && n ≤ 0x200A) || n == 0x2028 || n == 0x2029 || n == 0x202F || n == 0x205F
    || n == 0x3000

namespace Text

/-- Drops the characters that satisfy `p` from both ends. -/
def trimBy (p : Char → Bool) (s : Text) : Text := dropTrailing p (s.dropWhile p)

/-- Drops the blanks at both ends. -/
def trim (s : Text) : Text := trimBy isBlank s

theorem length_dropWhile_le (p : Char → Bool) (s : Text) : (s.dropWhile p).length ≤ s.length :=
  (List.dropWhile_sublist p).length_le

/-- The maximal runs of characters that are not blank, in order. -/
def words (s : Text) : List Text :=
  match _h : s.dropWhile isBlank with
  | [] => []
  | c :: rest =>
    (c :: rest.takeWhile fun d => !isBlank d) :: words (rest.dropWhile fun d => !isBlank d)
termination_by s.length
decreasing_by
  have h₁ := length_dropWhile_le isBlank s
  have h₂ := length_dropWhile_le (fun d => !isBlank d) rest
  rw [_h, List.length_cons] at h₁
  omega

/-- The text without its blanks. -/
def dropBlanks (s : Text) : Text := s.filter fun c => !isBlank c

end Text

end Headline
