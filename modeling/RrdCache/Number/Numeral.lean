/-
RrdCache/Number/Numeral.lean

Whole numbers as decimal numerals.  Conversion in either direction is refused
beyond 4300 digits, so that no single numeral can cost unbounded work; leading
zeros count, the sign does not.

`Numeral.value` is the value of a run of ASCII digits that a line's shape has
already singled out.  `Numeral.ofText` reads free text: white space around the
number, a sign, digits of any script, and single underscores between digits.
`Numeral.text` writes.
-/
import RrdCache.Text.Blank
import RrdCache.Text.Digit
import RrdCache.Text.Quoted

namespace RrdCache

/-- Why a number was not read or written. -/
inductive NumeralError
  /-- The numeral to be read has this many digits. -/
  | tooManyDigits (count : Nat)
  /-- The number to be written has too many digits. -/
  | tooLarge
  /-- The text is no whole number. -/
  | notWhole (text : String)
  /-- The text is no number. -/
  | notNumber (text : String)
  /-- A whole number was asked of the value that is no number. -/
  | wholeOfNaN
  /-- A whole number was asked of an infinity. -/
  | wholeOfInfinity
  /-- A double was asked of a whole number beyond all doubles. -/
  | beyondDoubles
deriving DecidableEq, Repr

namespace Numeral

/-- The greatest number of digits that is converted. -/
def digitLimit : Nat := 4300

/-- The value of ASCII digits, none of which is checked. -/
def natOfDigits (digits : List Char) : Nat :=
  Nat.ofDigitChars 10 digits 0

/-- The value of a run of ASCII digits. -/
def value (digits : List Char) : Except NumeralError Nat :=
  if digitLimit < digits.length then .error (.tooManyDigits digits.length)
  else .ok (natOfDigits digits)

/-- Splits a leading sign off: whether it is a minus, and what follows it. -/
def sign : List Char → Bool × List Char
  | '-' :: rest => (true, rest)
  | '+' :: rest => (false, rest)
  | s => (false, s)

/-- The number with this sign and magnitude. -/
def signed (negative : Bool) (n : Nat) : Int :=
  if negative then -(n : Int) else n

/-- The value of ASCII digits after an optional sign. -/
def signedValue (s : List Char) : Except NumeralError Int :=
  let (negative, digits) := sign s
  (value digits).map (signed negative)

/-- Digits between which single underscores may stand: the digits alone. -/
def ungroup? (s : List Char) : Option (List Char) :=
  let groups := s.splitOn '_'
  if groups.any List.isEmpty then none else some groups.flatten

/-- A text with its surrounding white space cut off and its digits folded to ASCII. -/
def folded (s : List Char) : List Char :=
  (trim isPadding s).map foldDigit

/-- The whole number that a text spells.  The digits are counted before what follows
them is looked at. -/
def ofText (s : List Char) : Except NumeralError Int :=
  let (negative, body) := sign (folded s)
  let isPart := fun c : Char => c.isDigit || c == '_'
  match ungroup? (body.takeWhile isPart) with
  | none => .error (.notWhole (String.ofList s))
  | some digits =>
    match value digits with
    | .error e => .error e
    | .ok n =>
      if (body.dropWhile isPart).isEmpty then .ok (signed negative n)
      else .error (.notWhole (String.ofList s))

/-- The decimal digits of a number, a minus before them if it is negative. -/
def digits (i : Int) : List Char :=
  if i < 0 then '-' :: Nat.toDigits 10 i.natAbs else Nat.toDigits 10 i.natAbs

/-- The decimal text of a number of any size. -/
def spelling (i : Int) : String :=
  String.ofList (digits i)

/-- The decimal text of a number, if it is not too long. -/
def text (i : Int) : Except NumeralError String :=
  if Nat.pow 10 digitLimit ≤ i.natAbs then .error .tooLarge else .ok (spelling i)

end Numeral

/-- How much of a refused text a message shows, its quotation mark included. -/
def NumeralError.shownLength : Nat := 200

/-- What a message says of a number that was not converted. -/
def NumeralError.message : NumeralError → String
  | tooManyDigits n =>
    "Exceeds the limit (4300 digits) for integer string conversion: value has "
      ++ Numeral.spelling n ++ " digits; use sys.set_int_max_str_digits() to increase the limit"
  | tooLarge =>
    "Exceeds the limit (4300 digits) for integer string conversion; "
      ++ "use sys.set_int_max_str_digits() to increase the limit"
  | notWhole t =>
    "invalid literal for int() with base 10: "
      ++ String.ofList ((quoted t).toList.take shownLength)
  | notNumber t => "could not convert string to float: " ++ quoted t
  | wholeOfNaN => "cannot convert float NaN to integer"
  | wholeOfInfinity => "cannot convert float infinity to integer"
  | beyondDoubles => "int too large to convert to float"

end RrdCache
