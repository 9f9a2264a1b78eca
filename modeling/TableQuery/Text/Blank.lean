/-
Blank characters: the white space of every script.

Two sets are in use.  `isWhite` is the White_Space property, the blanks around a number;
`isBlank` adds the four information separators, which are blanks in a file of settings.
-/
import TableQuery.Text.Ranges

namespace TableQuery

/-- White space beyond ASCII. -/
def whiteRanges : CodeRanges := ⟨[
  (0x85, 0x85), (0xa0, 0xa0), (0x1680, 0x1680), (0x2000, 0x200a), (0x2028, 0x2029),
  (0x202f, 0x202f), (0x205f, 0x205f), (0x3000, 0x3000)]⟩

/-- Whether a character has the White_Space property. -/
def isWhite (c : Char) : Bool :=
  if c.toNat < 0x80 then c == ' ' || (0x09 ≤ c.toNat && c.toNat ≤ 0x0d) else whiteRanges.contains c

/-- Whether a character is white space or an information separator. -/
def isBlank (c : Char) : Bool :=
  isWhite c || (0x1c ≤ c.toNat && c.toNat ≤ 0x1f)

/-- A text without the characters of a class at its two ends. -/
def trimBy (p : Char → Bool) (cs : List Char) : List Char :=
  ((cs.dropWhile p).reverse.dropWhile p).reverse

end TableQuery
