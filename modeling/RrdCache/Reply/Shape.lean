/-
RrdCache/Reply/Shape.lean

The parts that lines of replies are made of: digits after a sign, gaps of spaces and tabs,
names before a colon, and the text up to the end of the line.
-/
import RrdCache.Text.Scan

namespace RrdCache

/-- The white space between the parts of a line. -/
def isGap (c : Char) : Bool :=
  c == ' ' || c == '\t'

namespace Shape

/-- A run of one or more ASCII digits. -/
def digits? (s : List Char) : Option (List Char × List Char) :=
  Scan.run? Char.isDigit s

/-- A sign that may be missing, and a run of digits. -/
def signedDigits? (s : List Char) : Option (List Char × List Char) :=
  match s with
  | c :: rest =>
    if c = '+' ∨ c = '-' then (digits? rest).map fun (number, rest) => (c :: number, rest)
    else digits? s
  | [] => none

/-- A gap, as long as it gets. -/
def gap? (s : List Char) : Option (List Char) :=
  (Scan.run? isGap s).map (·.2)

/-- The rest of the line, whose end is the end of the text; no carriage return stands in it. -/
def text? (s : List Char) : Option (List Char) :=
  let isText := fun c : Char => c != '\r' && c != '\n'
  if s.dropWhile isText = ['\n'] then some (s.takeWhile isText) else none

/-- A name, a colon and a gap: the name has no colon. -/
def key? (s : List Char) : Option (List Char × List Char) := do
  let (key, rest) ← Scan.run? (· != ':') s
  let rest ← Scan.after? [':'] rest
  let rest ← gap? rest
  some (key, rest)

end Shape

end RrdCache
