/-
RrdCache/Reply/Entry.lean

Single entries of replies: a database waiting in the queue, a named statistic, and numbers
that stand alone.
-/
import RrdCache.Error
import RrdCache.Reply.Shape

namespace RrdCache

/-- The number that a text of ASCII digits stands for; `e` is raised for any other text. -/
def readUnsigned (e : Error) (value : String) : Except Error Nat :=
  let digits := value.toList
  if !digits.isEmpty && digits.all Char.isDigit then liftNumeral (Numeral.value digits)
  else .error e

/-- The time that a message consists of. -/
def readTimestamp (message : String) : Except Error Nat :=
  readUnsigned (.line (.timestamp message)) message

/-- The number that the value of `what` is. -/
def readCount (what value : String) : Except Error Nat :=
  readUnsigned (.line (.unsigned what value)) value

/-- A database in the queue and the number of its updates that wait. -/
structure QueueEntry where
  path : String
  pending : Nat
deriving DecidableEq, Repr

namespace QueueEntry

/-- The count and the path of a line of the queue. -/
def split? (line : List Char) : Option (List Char × List Char) := do
  let (count, rest) ← Shape.digits? line
  let rest ← Shape.gap? rest
  let path ← Shape.text? rest
  some (count, path)

/-- The entry that a line holds. -/
def ofLine (line : String) : Except Error QueueEntry :=
  match split? line.toList with
  | none => .error (.line (.queue line))
  | some (count, path) => do
    let count ← liftNumeral (Numeral.value count)
    .ok ⟨String.ofList path, count⟩

end QueueEntry

/-- A statistic of the daemon. -/
structure Statistic where
  name : String
  value : Int
deriving DecidableEq, Repr

namespace Statistic

/-- The name and the number of a line of statistics. -/
def split? (line : List Char) : Option (List Char × List Char) := do
  let (name, rest) ← Shape.key? line
  let (number, rest) ← Shape.signedDigits? rest
  if rest = ['\n'] then some (name, number) else none

/-- The statistic that a line holds. -/
def ofLine (line : String) : Except Error Statistic :=
  match split? line.toList with
  | none => .error (.line (.stats line))
  | some (name, number) => do
    let value ← liftNumeral (Numeral.signedValue number)
    .ok ⟨String.ofList name, value⟩

/-- Statistics with one more: a known name keeps its place and takes the new value. -/
def put (s : Statistic) : List Statistic → List Statistic
  | [] => [s]
  | t :: rest => if t.name = s.name then s :: rest else t :: put s rest

/-- Statistics by name, in the order of first appearance, each with its last value. -/
def collect (all : List Statistic) : List Statistic :=
  all.foldl (fun seen s => s.put seen) []

end Statistic

end RrdCache
