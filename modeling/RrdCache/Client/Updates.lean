/-
RrdCache/Client/Updates.lean

Updates, one at a time and in batches.  A batch is opened by a request of its own; then
the updates go out without replies, and the reply to the closing dot counts and lists the
updates that the daemon rejected.  All updates of a batch are written down before
anything is sent.
-/
import RrdCache.Client.Exchange
import RrdCache.Request

namespace RrdCache

/-- How a batch ended: the message to the closing dot, and a line for each rejected update. -/
structure BatchOutcome where
  message : String
  errors : List String
deriving DecidableEq, Repr

namespace BatchOutcome

/-- Whether no update was rejected. -/
def isOk (o : BatchOutcome) : Bool := o.errors.isEmpty

/-- Raises an error if an update was rejected. -/
def check (o : BatchOutcome) : Except Error Unit :=
  if o.isOk then .ok () else .error (.rejected o.message o.errors)

/-- What the log says of a batch of a number of updates. -/
def summary (o : BatchOutcome) (count : Nat) : String :=
  "batch of " ++ Numeral.spelling count ++ " updates: "
    ++ Numeral.spelling o.errors.length ++ " rejected (" ++ o.message ++ ")"

end BatchOutcome

namespace Client

/-- Sends a request and reads its reply.  Nothing is sent if the request has no line. -/
def request (r : Request) : Dialogue Reply := do
  let line ← Dialogue.ofExcept r.line
  exchange line

/-- The time of a point: its own, or that of the clock. -/
def timeOf (p : Point) : Dialogue Nat :=
  match p.timestamp with
  | some t => pure t
  | none => do
    let reading ← Dialogue.perform .look
    Dialogue.ofExcept reading.seconds

/-- The request line of a point. -/
def updateLine (p : Point) : Dialogue String := do
  let time ← timeOf p
  Dialogue.ofExcept (Request.update p time).line

/-- The request lines of points, in order. -/
def updateLines : List Point → Dialogue (List String)
  | [] => pure []
  | p :: rest => do
    let line ← updateLine p
    let lines ← updateLines rest
    pure (line :: lines)

/-- Sends lines that have no replies. -/
def writeLines : List String → Dialogue Unit
  | [] => pure ()
  | line :: rest => do
    writeLine line
    writeLines rest

/-- Sends points as a batch and gives its outcome. -/
def batchOutcome (points : List Point) : Dialogue BatchOutcome := do
  let lines ← updateLines points
  let _ ← request (.command .batch)
  writeLines lines
  let reply ← request (.command .batchEnd)
  let outcome : BatchOutcome := ⟨reply.message, reply.lines.map chomp⟩
  if !outcome.isOk then
    Dialogue.log .warning .batch (outcome.summary lines.length)
  pure outcome

/-- Sends points as a batch; a rejected update is an error. -/
def batch (points : List Point) : Dialogue Unit := do
  let outcome ← batchOutcome points
  Dialogue.ofExcept outcome.check

/-- Sends one update. -/
def update (path : String) (timestamp : Scalar) (values : List Scalar) : Dialogue Unit := do
  let point ← Dialogue.ofExcept (Point.ofParts path timestamp values)
  let line ← updateLine point
  let _ ← exchange line

end Client

end RrdCache
