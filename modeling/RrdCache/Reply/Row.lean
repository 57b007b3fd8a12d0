/-
RrdCache/Reply/Row.lean

Rows of data: a time, a colon, and one number or more with gaps before them.  Numbers are
ASCII decimals, or the words for infinity and for no number in any case.  Case is ignored
by the rule for all scripts, under which the dotted capital and the dotless small letter i
match the plain one: such a word has the shape of a number, and is then refused as one.
-/
import RrdCache.Error
import RrdCache.Reply.Shape

namespace RrdCache

/-- The values of one time. -/
structure Row where
  time : Nat
  values : List Binary64
deriving DecidableEq

namespace Row

/-- A letter without its case; both foreign letters i count as the plain one. -/
def caseless (c : Char) : Char :=
  if c = 'İ' ∨ c = 'ı' then 'i' else c.toLower

/-- The words that are numbers. -/
def numberWords : List String := ["nan", "inf", "infinity"]

/-- The characters of decimals on data lines. -/
def isDecimalChar (c : Char) : Bool :=
  c.isDigit || ".+-eE".toList.contains c

/-- Whether a token has the shape of a number. -/
def isNumber (token : List Char) : Bool :=
  let body := (Numeral.sign token).2
  numberWords.contains (String.ofList (body.map caseless))
    || (body.all isDecimalChar && (Decimal.ofChars? body).isSome)

/-- The tokens of the values: pieces between gaps, with none at the end of the line. -/
def tokens? (s : List Char) : Option (List (List Char)) :=
  let tokens := (s.splitOnP isGap).filter fun t => !t.isEmpty
  if tokens.isEmpty || s.getLast?.any isGap || !tokens.all isNumber then none
  else some tokens

/-- The time and the tokens of a data line. -/
def split? (line : List Char) : Option (List Char × List (List Char)) := do
  let (time, rest) ← Shape.digits? line
  let rest ← Scan.after? [':'] rest
  let rest ← Shape.gap? rest
  let text ← Shape.text? rest
  let tokens ← tokens? text
  some (time, tokens)

/-- The row that a line holds.  The time is converted before the values are. -/
def ofLine (line : String) : Except Error Row :=
  match split? line.toList with
  | none => .error (.line (.row line))
  | some (time, tokens) => do
    let time ← liftNumeral (Numeral.value time)
    let values ← tokens.mapM fun t => liftNumeral (Binary64.ofText t)
    .ok ⟨time, values⟩

end Row

end RrdCache
