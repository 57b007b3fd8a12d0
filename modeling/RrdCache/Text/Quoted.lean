/-
RrdCache/Text/Quoted.lean

Texts and byte strings between quotation marks, as messages and logs show them.
The marks are apostrophes, unless the text has an apostrophe and no double quote.
The mark, the backslash and the three line characters are escaped by name; what is
not printable is written by its code, in the shortest of three widths.
-/
import RrdCache.Text.Printable

namespace RrdCache

namespace Quoted

/-- The quotation mark for a text with these characters. -/
def mark (s : List Char) : Char :=
  if '\'' ∈ s ∧ '"' ∉ s then '"' else '\''

/-- A number in lower-case hexadecimal, filled with zeros to a width. -/
def hex (width n : Nat) : List Char :=
  let digits := Nat.toDigits 16 n
  List.replicate (width - digits.length) '0' ++ digits

/-- A character by its code: two, four or eight hexadecimal digits. -/
def byCode (n : Nat) : List Char :=
  if n < 0x100 then '\\' :: 'x' :: hex 2 n
  else if n < 0x10000 then '\\' :: 'u' :: hex 4 n
  else '\\' :: 'U' :: hex 8 n

/-- One character between marks `q`; `shown` tells which characters stand for themselves. -/
def escape (shown : Char → Bool) (q c : Char) : List Char :=
  if c = q ∨ c = '\\' then ['\\', c]
  else if c = '\n' then ['\\', 'n']
  else if c = '\r' then ['\\', 'r']
  else if c = '\t' then ['\\', 't']
  else if shown c then [c]
  else byCode c.toNat

/-- Characters between their quotation marks. -/
def enclose (shown : Char → Bool) (s : List Char) : List Char :=
  mark s :: (s.flatMap (escape shown (mark s)) ++ [mark s])

end Quoted

/-- A text between quotation marks. -/
def quoted (s : String) : String :=
  String.ofList (Quoted.enclose isPrintable s.toList)

/-- A byte string between quotation marks, marked by a `b`: each byte counts as the
character of its code, and only printable ASCII stands for itself. -/
def quotedBytes (bytes : List UInt8) : String :=
  String.ofList ('b' :: Quoted.enclose (fun c => 0x20 ≤ c.toNat && c.toNat < 0x7F)
    (bytes.map fun b => Char.ofNat b.toNat))

end RrdCache
