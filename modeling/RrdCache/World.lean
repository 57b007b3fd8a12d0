/-
RrdCache/World.lean

Scripted surroundings.  A `World` holds everything that a dialogue can meet: the bytes the
daemon is going to send, the readings of the clock, and a plan of faults, each of which
strikes the n-th use of one operation before the operation does anything.  It also
holds what the client has done so far.

`World.answer` is one action, `Dialogue.run` a whole dialogue.
-/
import RrdCache.Dialogue

namespace RrdCache

/-- The operations that a fault can strike. -/
inductive Operation
  | read
  | write
  | drain
  | waitClosed
  | dial
deriving DecidableEq, Repr

/-- A fault that strikes the `turn`-th use of an operation, counted from 1. -/
structure PlannedFault where
  operation : Operation
  turn : Nat
  fault : Fault
deriving DecidableEq, Repr

/-- Surroundings that follow a script, and what was done in them. -/
structure World where
  /-- The bytes that the daemon has sent or will send, and that were not read yet. -/
  incoming : List UInt8
  /-- The clock's further readings. -/
  clock : Clock
  /-- The planned faults. -/
  faults : List PlannedFault := []
  /-- How connections close. -/
  closing : Closing := .awaited
  /-- How often each operation was used, failures included. -/
  uses : Operation → Nat := fun _ => 0
  /-- The texts that were written, in order. -/
  sent : List String := []
  /-- The addresses that were dialed, in order, failures included. -/
  dialed : List Address := []
  /-- Whether a connection was closed. -/
  closed : Bool := false
  /-- The records that were kept, in order. -/
  log : List LogRecord := []

/-- The bytes up to and including the first line feed, and the bytes after it. -/
def cutLine : List UInt8 → List UInt8 × List UInt8
  | [] => ([], [])
  | b :: rest =>
    if b = 10 then ([b], rest) else
      let (line, after) := cutLine rest
      (b :: line, after)

namespace World

/-- The fault that is planned for a use of an operation. -/
def planned? (w : World) (op : Operation) (turn : Nat) : Option Fault :=
  (w.faults.find? fun p => p.operation = op ∧ p.turn = turn).map PlannedFault.fault

/-- Counts a use of an operation, and does it unless a fault strikes. -/
def use {α : Type} (w : World) (op : Operation) (act : World → α × World) :
    Except Fault α × World :=
  let turn := w.uses op + 1
  let w' := { w with uses := fun o => if o = op then turn else w.uses o }
  match w.planned? op turn with
  | some f => (.error f, w')
  | none =>
    let (a, w'') := act w'
    (.ok a, w'')

/-- The surroundings' answer to an action. -/
def answer (w : World) : (a : Action) → a.Answer × World
  | .readLine => w.use .read fun w =>
    let (line, rest) := cutLine w.incoming
    (line, { w with incoming := rest })
  | .write line => w.use .write fun w => ((), { w with sent := w.sent ++ [line] })
  | .drain => w.use .drain fun w => ((), w)
  | .close => (w.closing, { w with closed := w.closed || w.closing != .unable })
  | .waitClosed => w.use .waitClosed fun w => ((), w)
  | .dial address =>
    { w with dialed := w.dialed ++ [address] }.use .dial fun w => ((), w)
  | .look =>
    let (reading, clock) := w.clock.look
    (reading, { w with clock := clock })
  | .log record => ((), { w with log := w.log ++ [record] })

end World

/-- A dialogue in scripted surroundings: its result, and the surroundings after it. -/
def Dialogue.run {α : Type} : Dialogue α → World → Except Error α × World
  | .done r, w => (r, w)
  | .ask a next, w => (next (w.answer a).1).run (w.answer a).2

end RrdCache
