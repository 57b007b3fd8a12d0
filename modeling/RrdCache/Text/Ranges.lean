/-
RrdCache/Text/Ranges.lean

Character classes given by ranges of code points.  A class that no simple rule
describes is a list of closed ranges, and a character belongs to it when one of
the ranges contains its code point.
-/

namespace RrdCache

/-- A class of characters: closed ranges of code points. -/
abbrev CharRanges := List (Nat × Nat)

/-- Membership of a character in a class. -/
def CharRanges.contains (ranges : CharRanges) (c : Char) : Bool :=
  ranges.any fun r => r.1 ≤ c.toNat && c.toNat ≤ r.2

/-- Where a character stands in its range, counted from the range's start. -/
def CharRanges.offset? (ranges : CharRanges) (c : Char) : Option Nat :=
  (ranges.find? fun r => r.1 ≤ c.toNat && c.toNat ≤ r.2).map fun r => c.toNat - r.1

end RrdCache
