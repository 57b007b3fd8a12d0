/-
RrdCache/Proofs/Json/Grammar.lean

The grammar of JSON.  A text is one value with white space around it; a value is a word, a
number, a string, or a list of values or of named members between its two marks, and white
space may stand around every mark.
-/
import Mathlib.Data.List.Basic

namespace RrdCache

namespace Json

/-! ### Tokens -/

/-- White space. -/
def IsSpace (s : List Char) : Prop :=
  ∀ c ∈ s, c = ' ' ∨ c = '\t' ∨ c = '\n' ∨ c = '\r'

/-- One of the six marks that a text is built with, and white space around it. -/
inductive IsMark (mark : Char) : List Char → Prop
  | around {before after : List Char} (hbefore : IsSpace before) (hafter : IsSpace after) :
    IsMark mark (before ++ mark :: after)

/-- One digit or more. -/
def IsDigits (s : List Char) : Prop :=
  s ≠ [] ∧ ∀ c ∈ s, c.isDigit

/-- A whole number without a sign; it begins with a zero only if it is one. -/
inductive IsWhole : List Char → Prop
  | zero : IsWhole ['0']
  | digits {c : Char} {s : List Char} (hc : c.isDigit) (hne : c ≠ '0')
    (hs : ∀ d ∈ s, d.isDigit) : IsWhole (c :: s)

/-- A fraction, or none. -/
inductive IsFraction : List Char → Prop
  | none : IsFraction []
  | point {s : List Char} (h : IsDigits s) : IsFraction ('.' :: s)

/-- An exponent, or none. -/
inductive IsExponent : List Char → Prop
  | none : IsExponent []
  | letter {e : Char} {sign digits : List Char} (he : e = 'e' ∨ e = 'E')
    (hsign : sign = [] ∨ sign = ['+'] ∨ sign = ['-']) (h : IsDigits digits) :
    IsExponent (e :: (sign ++ digits))

/-- A number. -/
inductive IsNumber : List Char → Prop
  | parts {minus whole fraction exponent : List Char} (hminus : minus = [] ∨ minus = ['-'])
    (hwhole : IsWhole whole) (hfraction : IsFraction fraction) (hexponent : IsExponent exponent) :
    IsNumber (minus ++ whole ++ fraction ++ exponent)

/-- The digits of a code. -/
def hexDigits : List Char :=
  "0123456789abcdefABCDEF".toList

/-- A character of a string: itself, its name after a backslash, or its code. -/
inductive IsChar : List Char → Prop
  | itself {c : Char} (hlow : 0x20 ≤ c.toNat) (hquote : c ≠ '"') (hslash : c ≠ '\\') : IsChar [c]
  | named {c : Char} (h : c ∈ "\"\\/bfnrt".toList) : IsChar ['\\', c]
  | code {digits : List Char} (hlength : digits.length = 4) (hhex : digits ⊆ hexDigits) :
    IsChar ('\\' :: 'u' :: digits)

/-- The characters of a string. -/
inductive IsChars : List Char → Prop
  | nil : IsChars []
  | cons {c s : List Char} (hc : IsChar c) (hs : IsChars s) : IsChars (c ++ s)

/-- A string. -/
inductive IsString : List Char → Prop
  | quoted {s : List Char} (h : IsChars s) : IsString ('"' :: (s ++ ['"']))

/-! ### Values -/

mutual

/-- A value. -/
inductive IsValue : List Char → Prop
  | word {w : String} (h : w = "null" ∨ w = "true" ∨ w = "false") : IsValue w.toList
  | number {s : List Char} (h : IsNumber s) : IsValue s
  | string {s : List Char} (h : IsString s) : IsValue s
  | emptyArray {opening closing : List Char} (hopening : IsMark '[' opening)
    (hclosing : IsMark ']' closing) : IsValue (opening ++ closing)
  | array {opening items closing : List Char} (hopening : IsMark '[' opening)
    (hitems : IsItems items) (hclosing : IsMark ']' closing) :
    IsValue (opening ++ items ++ closing)
  | emptyObject {opening closing : List Char} (hopening : IsMark '\x7b' opening)
    (hclosing : IsMark '\x7d' closing) : IsValue (opening ++ closing)
  | object {opening members closing : List Char} (hopening : IsMark '\x7b' opening)
    (hmembers : IsMembers members) (hclosing : IsMark '\x7d' closing) :
    IsValue (opening ++ members ++ closing)

/-- Values with commas between them. -/
inductive IsItems : List Char → Prop
  | last {s : List Char} (h : IsValue s) : IsItems s
  | cons {s comma rest : List Char} (h : IsValue s) (hcomma : IsMark ',' comma)
    (hrest : IsItems rest) : IsItems (s ++ comma ++ rest)

/-- A string and a value with a colon between them. -/
inductive IsMember : List Char → Prop
  | named {name colon value : List Char} (hname : IsString name) (hcolon : IsMark ':' colon)
    (hvalue : IsValue value) : IsMember (name ++ colon ++ value)

/-- Members with commas between them. -/
inductive IsMembers : List Char → Prop
  | last {s : List Char} (h : IsMember s) : IsMembers s
  | cons {s comma rest : List Char} (h : IsMember s) (hcomma : IsMark ',' comma)
    (hrest : IsMembers rest) : IsMembers (s ++ comma ++ rest)

end

/-- A JSON text. -/
inductive IsText : List Char → Prop
  | around {before value after : List Char} (hbefore : IsSpace before) (hvalue : IsValue value)
    (hafter : IsSpace after) : IsText (before ++ value ++ after)

end Json

end RrdCache
