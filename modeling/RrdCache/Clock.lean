/-
RrdCache/Clock.lean

Clocks.  A look at a clock gives a reading: a value, or the reason why there is none.  Only
whole seconds since the epoch are of use, so every reading is checked where it is used.

A `Clock` is what all further looks at it will give: the readings in order, the last one
for ever.  `systemReading` is one look at the system's clock.
-/
import RrdCache.Error

namespace RrdCache

/-- What one look at a clock gives. -/
abbrev Reading := Except Error Scalar

/-- The seconds since the epoch that a reading gives. -/
def Reading.seconds : Reading → Except Error Nat
  | .error e => .error e
  | .ok v =>
    match v.epoch? with
    | some t => .ok t
    | none => .error (.showing v (.clock (.reading v)))

/-- The readings that a clock is going to give. -/
structure Clock where
  next : Reading
  later : List Reading

namespace Clock

/-- The clock that always gives one value. -/
def fixed (v : Scalar) : Clock := ⟨.ok v, []⟩

/-- One look at a clock, and what later looks will give. -/
def look (c : Clock) : Reading × Clock :=
  match c.later with
  | [] => (c.next, c)
  | r :: rest => (c.next, ⟨r, rest⟩)

end Clock

/-- The whole part of a number that is not negative. -/
def wholeSeconds : Scalar → Except NumeralError Int
  | .float .nan => .error .wholeOfNaN
  | .float x =>
    match x.truncate? with
    | some i => .ok i
    | none => .error .wholeOfInfinity
  | .int i => .ok i
  | v => .error (.notWhole v.shown)

/-- A look at the system's clock, which answers with a number of seconds or with the text of
a failure.  Fractions of seconds are dropped. -/
def systemReading : Except String Scalar → Reading
  | .error t => .error (.clock (.unreadable t))
  | .ok now =>
    if (Scalar.int 0).le now ∨ now = .float .nan then
      (liftNumeral (wholeSeconds now)).map .int
    else .error (.clock .beforeEpoch)

end RrdCache
