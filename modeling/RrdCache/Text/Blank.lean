/-
RrdCache/Text/Blank.lean

White space.  Two classes are in use: *blanks* separate words and surround
addresses; *padding* may surround a numeral, and is the same class without the
four information separators U+001C to U+001F.

`trim` cuts a class from both ends of a text, `trimEnd` from its end, and `words`
cuts a text at its blanks.
-/
import RrdCache.Text.Ranges

namespace RrdCache

/-- The characters that separate words. -/
def blankRanges : CharRanges :=
  [(0x9, 0xD), (0x1C, 0x20), (0x85, 0x85), (0xA0, 0xA0),
   (0x1680, 0x1680), (0x2000, 0x200A), (0x2028, 0x2029), (0x202F, 0x202F),
   (0x205F, 0x205F), (0x3000, 0x3000)]

/-- White space between words. -/
def isBlank (c : Char) : Bool :=
  blankRanges.contains c

/-- White space that may surround a numeral: the information separators do not. -/
def isPadding (c : Char) : Bool :=
  isBlank c && !(0x1C ≤ c.toNat && c.toNat ≤ 0x1F)

variable {α : Type}

/-- The list without the members of a class at its end. -/
def trimEnd (p : α → Bool) (s : List α) : List α :=
  (s.reverse.dropWhile p).reverse

/-- The list without the members of a class at either end. -/
def trim (p : α → Bool) (s : List α) : List α :=
  trimEnd p (s.dropWhile p)

/-- The maximal runs of characters that are not blank, in order. -/
def words (s : List Char) : List (List Char) :=
  (s.splitOnP isBlank).filter fun w => !w.isEmpty

end RrdCache
