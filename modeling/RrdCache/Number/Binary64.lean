/-
RrdCache/Number/Binary64.lean

Double precision numbers as exact values.  Every finite double is a whole multiple
of the least positive one, 2^-1074; so a finite magnitude is the natural number of
these *units*, and what makes it a double is that its significand has at most 53
bits and its exponent is in range.  Comparison with whole numbers is then comparison
of integers, and rounding is one division.

`Magnitude.round` gives the nearest double to a quotient of natural numbers, of two
equally near ones the one with the even significand.  `Place` orders doubles and whole numbers
on one line.
-/

namespace RrdCache

/-- The units in one: the least positive double is 2^-1074. -/
def unitsPerOne : Nat := Nat.pow 2 1074

/-- A finite magnitude, counted in units.  The significand has at most 53 bits, and the
magnitude stays below 2^1024. -/
structure Magnitude where
  units : Nat
  representable : ∃ m k, m < Nat.pow 2 53 ∧ k ≤ 2045 ∧ units = m * Nat.pow 2 k
deriving DecidableEq

/-- A double.  There is one value that is no number, and zero has both signs. -/
inductive Binary64
  | nan
  | infinite (negative : Bool)
  | finite (negative : Bool) (magnitude : Magnitude)
deriving DecidableEq

/-- The quotient rounded to the nearest whole number, a half to the even neighbour. -/
def roundDiv (a b : Nat) : Nat :=
  if 2 * (a % b) < b then a / b
  else if b < 2 * (a % b) then a / b + 1
  else a / b + (a / b) % 2

namespace Magnitude

/-- Zero. -/
def zero : Magnitude := ⟨0, 0, 0, by decide, by decide, rfl⟩

instance : Inhabited Magnitude := ⟨zero⟩

/-- The magnitude with this significand and exponent over the unit, if it is in range. -/
def scale? (m k : Nat) : Option Magnitude :=
  if h : m < Nat.pow 2 53 ∧ k ≤ 2045 then some ⟨m * Nat.pow 2 k, m, k, h.1, h.2, rfl⟩ else none

/-- How far the last bit of a double next to this many units stands above the unit: the
significand has 53 bits. -/
def lastBit (units : Nat) : Nat := units.log2 - 52

/-- The double nearest to `a / b` units, unless it lies beyond the greatest one. -/
def round (a b : Nat) : Option Magnitude :=
  let k := lastBit (a / b)
  let m := roundDiv a (b * Nat.pow 2 k)
  if m = Nat.pow 2 53 then scale? (Nat.pow 2 52) (k + 1) else scale? m k

end Magnitude

namespace Binary64

/-- Positive zero. -/
def zero : Binary64 := .finite false .zero

instance : Inhabited Binary64 := ⟨zero⟩

/-- The double nearest to `a / b` units of this sign; beyond the greatest, infinity. -/
def round (negative : Bool) (a b : Nat) : Binary64 :=
  match Magnitude.round a b with
  | some m => .finite negative m
  | none => .infinite negative

/-- The double nearest to a whole number. -/
def ofInt (i : Int) : Binary64 :=
  round (i < 0) (i.natAbs * unitsPerOne) 1

/-- The whole part of a double, the fraction dropped; the infinities have none. -/
def truncate? : Binary64 → Option Int
  | finite negative m =>
    let n := m.units / unitsPerOne
    some (if negative then -(n : Int) else n)
  | _ => none

/-- Whether the value is no number. -/
def isNaN : Binary64 → Bool
  | nan => true
  | _ => false

end Binary64

/-! ### Order across whole numbers and doubles -/

/-- A place on the line of numbers, in units, its two ends included. -/
inductive Place
  | bottom
  | point (units : Int)
  | top
deriving DecidableEq, Repr

namespace Place

/-- The order of places. -/
def le : Place → Place → Bool
  | bottom, _ => true
  | _, top => true
  | point a, point b => a ≤ b
  | _, _ => false

/-- The place of a whole number. -/
def ofInt (i : Int) : Place := point (i * unitsPerOne)

/-- The place of a double; the value that is no number has none. -/
def ofBinary64? : Binary64 → Option Place
  | .nan => none
  | .infinite true => some bottom
  | .infinite false => some top
  | .finite true m => some (point (-(m.units : Int)))
  | .finite false m => some (point m.units)

end Place

end RrdCache
