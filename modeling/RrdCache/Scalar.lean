/-
RrdCache/Scalar.lean

Values whose type is not known beforehand: the values of an update, a timestamp as a
caller or a clock gives it, the bounds of a data source.  A scalar is shown in messages,
may stand for a point in time, and may be compared with another one.

A place for a value may also be left blank.  `Slot` is a place for a value of known type.
-/
import RrdCache.Number.Shortest

namespace RrdCache

/-- A value of unknown type. -/
inductive Scalar
  | null
  | bool (value : Bool)
  | int (value : Int)
  | float (value : Binary64)
  | text (value : String)
  /-- A place that was left blank. -/
  | blank
deriving DecidableEq

namespace Scalar

instance : Inhabited Scalar := ⟨null⟩

/-- How a message shows a value. -/
def shown : Scalar → String
  | null => "None"
  | bool true => "True"
  | bool false => "False"
  | int i => Numeral.spelling i
  | float x => x.text
  | text s => quoted s
  | blank => "[]"

/-- How a message shows a value, unless it is a whole number too long to be written. -/
def shown? : Scalar → Except NumeralError String
  | int i => Numeral.text i
  | value => .ok value.shown

/-- The seconds since the epoch that a value stands for: only a whole number that is not
negative stands for any. -/
def epoch? : Scalar → Option Nat
  | int i => if 0 ≤ i then some i.toNat else none
  | _ => none

/-- The place of a numeric value among all numbers; a truth value counts as 0 or 1. -/
def place? : Scalar → Option Place
  | bool b => some (Place.ofInt (if b then 1 else 0))
  | int i => some (Place.ofInt i)
  | float x => Place.ofBinary64? x
  | _ => none

/-- The order of values: numbers by their exact values, texts by their characters.  No
other pair is in order. -/
def le : Scalar → Scalar → Bool
  | text s, text t => decide (s ≤ t)
  | a, b =>
    match a.place?, b.place? with
    | some p, some q => p.le q
    | _, _ => false

/-- The double nearest to a numeric value. -/
def toBinary64? : Scalar → Option Binary64
  | bool b => some (Binary64.ofInt (if b then 1 else 0))
  | int i => some (Binary64.ofInt i)
  | float x => some x
  | _ => none

end Scalar

/-- A place for a value: the value that was given, or a blank. -/
inductive Slot (α : Type)
  | given (value : α)
  | blank
deriving DecidableEq, Repr

/-- A whole number, or a blank, as a value of unknown type. -/
def Slot.toScalar : Slot Int → Scalar
  | given i => .int i
  | blank => .blank

end RrdCache
