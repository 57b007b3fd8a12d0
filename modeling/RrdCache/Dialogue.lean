/-
RrdCache/Dialogue.lean

What a client does, as data.  A client acts on its surroundings: it reads a line, writes
one, waits until what it wrote is on its way, closes the connection or opens one, looks at
the clock, and keeps a log.  A `Dialogue` is a tree of such actions: each `ask` branches on
the answer, and each leaf holds a result or an error.

Dialogues are a monad in which an error ends the dialogue.  `andThen` continues after an
error too.  A dialogue says nothing of the surroundings; `RrdCache.World` answers it from a
script, and a program may answer it from a socket.
-/
import RrdCache.Address
import RrdCache.Clock
import RrdCache.Log

namespace RrdCache

/-- How a connection closes: not at all, at once, or with something to wait for. -/
inductive Closing
  | unable
  | immediate
  | awaited
deriving DecidableEq, Repr

/-- What a client asks of its surroundings. -/
inductive Action
  /-- Read up to the next line feed, or to the end of what comes. -/
  | readLine
  /-- Hand a line over for sending. -/
  | write (line : String)
  /-- Wait until what was handed over is on its way. -/
  | drain
  /-- Close the connection. -/
  | close
  /-- Wait until the connection is closed. -/
  | waitClosed
  /-- Open a connection; it takes the place of the one before. -/
  | dial (address : Address)
  /-- Look at the clock. -/
  | look
  /-- Keep a record. -/
  | log (record : LogRecord)
deriving DecidableEq

/-- The type of the answers to an action. -/
abbrev Action.Answer : Action → Type
  | readLine => Except Fault (List UInt8)
  | write _ => Except Fault Unit
  | drain => Except Fault Unit
  | close => Closing
  | waitClosed => Except Fault Unit
  | dial _ => Except Fault Unit
  | look => Reading
  | log _ => Unit

/-- A tree of actions with results at its leaves. -/
inductive Dialogue (α : Type) : Type
  | done (result : Except Error α)
  | ask (action : Action) (next : action.Answer → Dialogue α)

namespace Dialogue

variable {α β : Type}

/-- Goes on with the result of a dialogue, an error included. -/
def andThen : Dialogue α → (Except Error α → Dialogue β) → Dialogue β
  | done r, f => f r
  | ask a next, f => ask a fun answer => (next answer).andThen f

/-- Goes on with the value of a dialogue; an error ends it. -/
def bind (d : Dialogue α) (f : α → Dialogue β) : Dialogue β :=
  d.andThen fun
    | .ok a => f a
    | .error e => done (.error e)

instance : Monad Dialogue where
  pure a := done (.ok a)
  bind := bind

/-- The dialogue that is only a result. -/
def ofExcept (r : Except Error α) : Dialogue α := done r

/-- The dialogue that fails. -/
def fail (e : Error) : Dialogue α := done (.error e)

/-- The dialogue of one action. -/
def perform (a : Action) : Dialogue a.Answer :=
  ask a fun answer => done (.ok answer)

/-- The dialogue of one action that may fail, and what its fault means. -/
def attempt (answer : Except Fault α) (meaning : Fault → Error) : Dialogue α :=
  match answer with
  | .ok a => done (.ok a)
  | .error f => done (.error (meaning f))

/-- Keeps a record. -/
def log (level : LogLevel) (source : LogSource) (text : String) : Dialogue Unit :=
  perform (.log ⟨level, source, text⟩)

end Dialogue

/-- What a fault of writing, closing or dialing means: a failure of the system is one of the
transport, and a limit of the stream is passed on as it is. -/
def Fault.toError (cause : String → TransportError) : Fault → Error
  | .system t => .transport (cause t)
  | .limit t => .fault (.limit t)

end RrdCache
