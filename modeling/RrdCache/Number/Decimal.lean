/-
RrdCache/Number/Decimal.lean

Doubles from decimal text.  A decimal is a coefficient and a power of ten, written
as digits with at most one point and an optional exponent; single underscores may
stand between digits.  `Decimal.round` is the double nearest to its exact value,
and `Binary64.ofText?` reads free text: white space around the number, digits of any
script, a sign, a decimal or one of the words for infinity and for no number.
-/
import RrdCache.Number.Numeral
import RrdCache.Number.Binary64

namespace RrdCache

/-- The number `coefficient * 10 ^ exponent`. -/
structure Decimal where
  coefficient : Nat
  exponent : Int
deriving DecidableEq, Repr

namespace Decimal

/-- Digits that may be missing: none, or digits with single underscores between them. -/
def digits? (s : List Char) : Option (List Char) :=
  if s.isEmpty then some [] else Numeral.ungroup? s

/-- The exponent that follows a coefficient: nothing, or the letter, a sign and digits. -/
def exponent? : List Char → Option Int
  | [] => some 0
  | c :: rest =>
    if c = 'e' ∨ c = 'E' then
      let (negative, digits) := Numeral.sign rest
      if digits.all (fun d => d.isDigit || d == '_') then
        (Numeral.ungroup? digits).map fun ds => Numeral.signed negative (Numeral.natOfDigits ds)
      else none
    else none

/-- The part of a text before its point or exponent, and the rest. -/
def digitRun (s : List Char) : List Char × List Char :=
  s.span fun c => c.isDigit || c == '_'

/-- The fraction and what follows it: a text without a point has no fraction. -/
def fractionRun : List Char → List Char × List Char
  | '.' :: rest => digitRun rest
  | rest => ([], rest)

/-- The decimal that ASCII characters spell; at least one digit stands beside the point. -/
def ofChars? (s : List Char) : Option Decimal := do
  let (whole, afterWhole) := digitRun s
  let (fraction, afterFraction) := fractionRun afterWhole
  let whole ← digits? whole
  let fraction ← digits? fraction
  let exponent ← exponent? afterFraction
  if whole.isEmpty && fraction.isEmpty then none
  else some ⟨Numeral.natOfDigits (whole ++ fraction), exponent - fraction.length⟩

/-- The double nearest to a decimal of this sign.  As ten is above eight, a decimal whose
binary length and exponent are far apart is known to be zero or infinite without its
power of ten. -/
def round (negative : Bool) (d : Decimal) : Binary64 :=
  let length := d.coefficient.log2
  let power := d.exponent.natAbs
  if d.coefficient = 0 then .finite negative .zero
  else if 0 ≤ d.exponent then
    if 1024 ≤ length + 3 * power then .infinite negative
    else Binary64.round negative (d.coefficient * Nat.pow 10 power * unitsPerOne) 1
  else if length + 1076 ≤ 3 * power then .finite negative .zero
  else Binary64.round negative (d.coefficient * unitsPerOne) (Nat.pow 10 power)

end Decimal

namespace Binary64

/-- The double that a word spells, in any case of its letters. -/
def ofWord? (negative : Bool) (s : List Char) : Option Binary64 :=
  let word := String.ofList (s.map Char.toLower)
  if word = "inf" ∨ word = "infinity" then some (.infinite negative)
  else if word = "nan" then some .nan
  else none

/-- The double that ASCII characters after a sign spell. -/
def ofUnsigned? (negative : Bool) (s : List Char) : Option Binary64 :=
  match ofWord? negative s with
  | some x => some x
  | none => (Decimal.ofChars? s).map (Decimal.round negative)

/-- The double that characters spell: a sign, and a word or a decimal. -/
def ofChars? (s : List Char) : Option Binary64 :=
  let (negative, body) := Numeral.sign s
  ofUnsigned? negative body

/-- The double that a text spells. -/
def ofText? (s : List Char) : Option Binary64 :=
  ofChars? (Numeral.folded s)

/-- The double that a text spells, or the reason why it spells none. -/
def ofText (s : List Char) : Except NumeralError Binary64 :=
  match ofText? s with
  | some x => .ok x
  | none => .error (.notNumber (String.ofList s))

end Binary64

end RrdCache
