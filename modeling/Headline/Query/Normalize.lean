import Headline.Text.Blank

/-!
# Normal form of titles and queries

Titles and queries are compared in a normal form: full-width ASCII becomes half-width, katakana
becomes hiragana, ASCII letters become small and blanks disappear. `normalizeQuery` keeps one
space between the words of a query, so that its terms stay apart.
-/

namespace Headline.Query

/-- Full-width ASCII without its parentheses, which stay as they are so that they never act as
grouping. -/
def isFullWidth (c : Char) : Bool :=
  0xFF01 ≤ c.toNat && c.toNat ≤ 0xFF5E && c.toNat != 0xFF08 && c.toNat != 0xFF09

/-- The katakana that have a hiragana counterpart. -/
def isKatakana (c : Char) : Bool := 0x30A1 ≤ c.toNat && c.toNat ≤ 0x30F6

/-- The half-width counterpart of a full-width character. -/
def halfWidth (c : Char) : Char := if isFullWidth c then Char.ofNat (c.toNat - 0xFEE0) else c

/-- The hiragana counterpart of a katakana character. -/
def hiragana (c : Char) : Char := if isKatakana c then Char.ofNat (c.toNat - 0x60) else c

/-- The normal form of one character, in a single step. -/
def foldChar (c : Char) : Char :=
  if isFullWidth c then (Char.ofNat (c.toNat - 0xFEE0)).toLower
  else if isKatakana c then Char.ofNat (c.toNat - 0x60)
  else c.toLower

/-- The normal form used for matching. -/
def normalize (s : Text) : Text := Text.dropBlanks (s.map foldChar)

/-- Each word in normal form, with one space between words. -/
def normalizeQuery (q : Text) : Text := Text.join [' '] ((Text.words q).map normalize)

end Headline.Query
