/-
RrdCache/Reply/Status.lean

Status lines.  Every reply starts with a signed number, a gap and a message.  A negative
number refuses the request; any other one is the count of the lines that follow.
-/
import RrdCache.Error
import RrdCache.Reply.Shape

namespace RrdCache

/-- What the first line of a reply says. -/
inductive Status
  | accepted (message : String) (pending : Nat)
  | refused (code : Int) (message : String)
deriving DecidableEq, Repr

namespace Status

/-- The number and the message of a status line. -/
def split? (line : List Char) : Option (List Char × List Char) := do
  let (number, rest) ← Shape.signedDigits? line
  let rest ← Shape.gap? rest
  let message ← Shape.text? rest
  some (number, message)

/-- The status with this number. -/
def ofCode (code : Int) (message : String) : Status :=
  if code < 0 then .refused code message else .accepted message code.toNat

/-- The status that a line states. -/
def ofLine (line : String) : Except Error Status :=
  match split? line.toList with
  | none => .error (.status (.shape line))
  | some (number, message) => do
    let code ← liftNumeral (Numeral.signedValue number)
    .ok (ofCode code (String.ofList message))

end Status

end RrdCache
