/-
RrdCache/Number/Shortest.lean

Decimal text of doubles: the fewest digits that read back as the same double, and of
two such decimals the nearer one, a tie going to the even last digit.

For each count of digits from one to seventeen the two neighbours of the value on that
decimal grid are laid out, the nearer first.  The text is the first of these that the
reader takes back to the value.  Seventeen digits always suffice; so that reading back
need not rest on this, the exact expansion stands at the end of the list.
-/
import RrdCache.Number.Decimal

namespace RrdCache

/-- How decimals are laid out: which places of the first digit are written without an
exponent, and how many digits an exponent has at least. -/
structure DecimalLayout where
  leastPositional : Int
  greatestPositional : Int
  exponentDigits : Nat

/-- Numbers from 0.0001 to below 10^16 are written without an exponent; an exponent has
its sign and two digits at least. -/
def DecimalLayout.wire : DecimalLayout := ⟨-4, 15, 2⟩

namespace Decimal

/-- An exponent: its letter, its sign, and digits filled with zeros. -/
def exponentText (width : Nat) (e : Int) : List Char :=
  let digits := Nat.toDigits 10 e.natAbs
  'e' :: (if e < 0 then '-' else '+') :: (List.replicate (width - digits.length) '0' ++ digits)

/-- Digits without an exponent, the point after the first `place` of them; a digit stands on
both sides of it. -/
def positional (digits : List Char) (place : Int) : List Char :=
  if place ≤ 0 then '0' :: '.' :: (List.replicate place.natAbs '0' ++ digits)
  else if digits.length ≤ place.natAbs then
    digits ++ List.replicate (place.natAbs - digits.length) '0' ++ ['.', '0']
  else digits.take place.natAbs ++ '.' :: digits.drop place.natAbs

/-- Digits with an exponent, the point after the first of them if there are more. -/
def scientific (layout : DecimalLayout) (digits : List Char) (place : Int) : List Char :=
  let coefficient := match digits with
    | first :: second :: rest => first :: '.' :: second :: rest
    | short => short
  coefficient ++ exponentText layout.exponentDigits (place - 1)

/-- The text of a positive decimal, without zeros at the end of its coefficient. -/
def text (layout : DecimalLayout) (d : Decimal) : List Char :=
  let all := Nat.toDigits 10 d.coefficient
  let digits := trimEnd (· == '0') all
  let place := all.length + d.exponent
  if layout.leastPositional ≤ place - 1 ∧ place - 1 ≤ layout.greatestPositional then
    positional digits place
  else scientific layout digits place

end Decimal

namespace Magnitude

/-- The place of the first decimal digit of a positive magnitude: 0 for units, -1 for
tenths.  Even the least magnitude has a digit before the 400th place. -/
def leadingPlace (m : Magnitude) : Int :=
  (Nat.toDigits 10 (m.units * Nat.pow 10 400 / unitsPerOne)).length - 401

/-- The two neighbours of a magnitude among the decimals whose last digit stands at a
place, the nearer first, of two equally near ones the even one. -/
def neighbours (m : Magnitude) (place : Int) : List Decimal :=
  let (a, b) :=
    if place ≤ 0 then (m.units * Nat.pow 10 place.natAbs, unitsPerOne)
    else (m.units, unitsPerOne * Nat.pow 10 place.natAbs)
  let below : Decimal := ⟨a / b, place⟩
  let above : Decimal := ⟨a / b + 1, place⟩
  if roundDiv a b = a / b then [below, above] else [above, below]

/-- The greatest number of digits that a double needs. -/
def digitsNeeded : Nat := 17

/-- The decimals next to a positive magnitude, those of fewer digits first. -/
def candidates (m : Magnitude) : List Decimal :=
  (List.range digitsNeeded).flatMap fun (i : Nat) => m.neighbours (m.leadingPlace - i)

/-- The exact expansion: a unit is `5 ^ 1074` over `10 ^ 1074`. -/
def expansion (m : Magnitude) : List Char :=
  Nat.toDigits 10 (m.units * Nat.pow 5 1074) ++ "e-1074".toList

/-- The shortest text that reads back as the magnitude. -/
def text (m : Magnitude) : List Char :=
  if m.units = 0 then ['0', '.', '0']
  else
    let texts := m.candidates.map (Decimal.text .wire)
    let readsBack := fun t => Binary64.ofUnsigned? false t == some (.finite false m)
    (texts.find? readsBack).getD m.expansion

end Magnitude

namespace Binary64

/-- The characters of a double's text. -/
def chars : Binary64 → List Char
  | nan => "nan".toList
  | infinite negative => (if negative then "-inf" else "inf").toList
  | finite negative m => if negative then '-' :: m.text else m.text

/-- The shortest text that reads back as the double. -/
def text (x : Binary64) : String :=
  String.ofList x.chars

end Binary64

end RrdCache
