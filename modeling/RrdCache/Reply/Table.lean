/-
RrdCache/Reply/Table.lean

Replies to queries for data: header lines, then rows.  Nothing separates the two, so the
first line without a known key ends the headers; it and all lines after it must be rows.
A key may come again, and its last value counts; a missing one has the default.
-/
import RrdCache.Reply.Row
import RrdCache.Reply.Entry
import RrdCache.Text.Blank

namespace RrdCache

/-- The known keys of header lines. -/
inductive HeaderKey
  | flushVersion
  | start
  | finish
  | step
  | sourceCount
  | sourceNames
deriving DecidableEq, Repr

namespace HeaderKey

/-- The spelling of a key. -/
def word : HeaderKey → String
  | flushVersion => "FlushVersion"
  | start => "Start"
  | finish => "End"
  | step => "Step"
  | sourceCount => "DSCount"
  | sourceNames => "DSName"

/-- All keys. -/
def all : List HeaderKey := [flushVersion, start, finish, step, sourceCount, sourceNames]

/-- The key with a spelling. -/
def ofWord? (word : String) : Option HeaderKey :=
  all.find? fun k => k.word = word

end HeaderKey

/-- A header line: its key, known or not, and its value. -/
structure Header where
  key : String
  value : String
deriving DecidableEq, Repr

namespace Header

/-- The key and the value of a header line. -/
def split? (line : List Char) : Option (List Char × List Char) := do
  let (key, rest) ← Shape.key? line
  let value ← Shape.text? rest
  some (key, value)

/-- The header that a line holds. -/
def ofLine (line : String) : Except Error Header :=
  match split? line.toList with
  | none => .error (.line (.header line))
  | some (key, value) => .ok ⟨String.ofList key, String.ofList value⟩

/-- The known key of a line and its value, if the line is such a header. -/
def known? (line : String) : Option (HeaderKey × String) := do
  let (key, value) ← split? line.toList
  let key ← HeaderKey.ofWord? (String.ofList key)
  some (key, String.ofList value)

end Header

/-- The data of a database over a range. -/
structure Table where
  flushVersion : Nat := 0
  start : Nat := 0
  finish : Nat := 0
  step : Nat := 0
  sourceCount : Nat := 0
  sourceNames : List String := []
  rows : List Row := []
deriving DecidableEq

namespace Table

/-- The table with one header taken in. -/
def put (t : Table) (key : HeaderKey) (value : String) : Except Error Table :=
  match key with
  | .sourceNames => .ok { t with sourceNames := (words value.toList).map String.ofList }
  | .flushVersion => do .ok { t with flushVersion := ← readCount key.word value }
  | .start => do .ok { t with start := ← readCount key.word value }
  | .finish => do .ok { t with finish := ← readCount key.word value }
  | .step => do .ok { t with step := ← readCount key.word value }
  | .sourceCount => do .ok { t with sourceCount := ← readCount key.word value }

/-- Takes in the header lines at the front, and gives the lines that follow them. -/
def readHeaders (t : Table) : List String → Except Error (Table × List String)
  | [] => .ok (t, [])
  | line :: rest =>
    match Header.known? line with
    | some (key, value) => do readHeaders (← t.put key value) rest
    | none => .ok (t, line :: rest)

/-- The table that the lines of a reply hold. -/
def ofLines (lines : List String) : Except Error Table := do
  let (table, rest) ← readHeaders {} lines
  let rows ← rest.mapM Row.ofLine
  .ok { table with rows := rows }

end Table

end RrdCache
