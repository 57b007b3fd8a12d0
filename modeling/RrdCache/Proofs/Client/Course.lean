/-
RrdCache/Proofs/Client/Course.lean

The courses that calls take.  There are many calls and few ways in which they use a
connection: nearly all send one request, read one reply and look at it; an update does the
same with a line that may need the clock; a batch has two exchanges with lines between
them; and three calls end the conversation.  `Call.course` gives the course of each call,
and `Call.dialogue_eq` says that the dialogue of a call is the one of its course, so that a
statement about all calls is proved for six courses.
-/
import RrdCache.Client.Calls
import RrdCache.Proofs.Dialogue.Run

namespace RrdCache

/-! ### What is read off a reply -/

namespace Reply

/-- A reply that says nothing. -/
def nothing (_ : Reply) : Except Error Outcome :=
  .ok .nothing

/-- A reply that must have a certain message. -/
def expected (message : String) (r : Reply) : Except Error Outcome :=
  if r.message = message then .ok .nothing else .error (.unexpected r.message message)

/-- The lines of a reply as texts. -/
def texts (r : Reply) : Except Error Outcome :=
  .ok (.texts (r.lines.map chomp))

/-- A headline and texts. -/
def help (r : Reply) : Except Error Outcome :=
  .ok (.help r.message (r.lines.map chomp))

/-- The time that a message is. -/
def time (r : Reply) : Except Error Outcome :=
  .time <$> readTimestamp r.message

/-- The statistics that the lines hold. -/
def stats (r : Reply) : Except Error Outcome :=
  (fun all => .stats (Statistic.collect all)) <$> r.lines.mapM Statistic.ofLine

/-- The queue that the lines hold. -/
def queue (r : Reply) : Except Error Outcome :=
  .queue <$> r.lines.mapM QueueEntry.ofLine

/-- The table that the lines hold. -/
def table (r : Reply) : Except Error Outcome :=
  .table <$> Table.ofLines r.lines

/-- How a batch ended, read off the reply to its closing dot. -/
def outcome (r : Reply) : BatchOutcome :=
  ⟨r.message, r.lines.map chomp⟩

end Reply

/-! ### Courses -/

/-- How a call uses its connection. -/
inductive Course
  /-- One request and its reply, off which the outcome is read. -/
  | order (request : Request) (decode : Reply → Except Error Outcome)
  /-- One update, if its parts make a point. -/
  | update (point : Except Error Point)
  /-- A batch of updates, and what its outcome gives. -/
  | batch (points : List Point) (finish : BatchOutcome → Except Error Outcome)
  /-- Leave-taking, which has no reply. -/
  | leave
  /-- The end of the connection. -/
  | close
  /-- A ping, and the end of the connection whatever comes of it. -/
  | pingAndClose

namespace Course

/-- One line and its reply: the line is written down, sent, and answered. -/
def exchanging (encode : Dialogue String) (decode : Reply → Except Error Outcome) :
    Dialogue Outcome := do
  let line ← encode
  let reply ← Client.exchange line
  Dialogue.ofExcept (decode reply)

/-- The line of an update, if its parts make a point. -/
def pointLine (point : Except Error Point) : Dialogue String := do
  let point ← Dialogue.ofExcept point
  Client.updateLine point

/-- The dialogue of a ping. -/
def ping : Dialogue Outcome :=
  exchanging (Dialogue.ofExcept (Request.command .ping).line) (Reply.expected "PONG")

/-- The dialogue of a course. -/
def dialogue : Course → Dialogue Outcome
  | order request decode => exchanging (Dialogue.ofExcept request.line) decode
  | update point => exchanging (pointLine point) Reply.nothing
  | batch points finish => do
    let outcome ← Client.batchOutcome points
    Dialogue.ofExcept (finish outcome)
  | leave => Client.quit.silent
  | close => Client.close.silent
  | pingAndClose => Client.closing ping

end Course

/-- The course of a call. -/
def Call.course : Call → Course
  | ping => .order (.command .ping) (Reply.expected "PONG")
  | help topic => .order (.command (.help topic)) Reply.help
  | stats => .order (.command .stats) Reply.stats
  | queue => .order (.command .queue) Reply.queue
  | create series => .order (.create series) (Reply.expected "RRD created OK")
  | update path timestamp values => .update (Point.ofParts path timestamp values)
  | updateOne path timestamp value => .update (Point.ofParts path timestamp [value])
  | batch points => .batch points fun o => (fun _ => .nothing) <$> o.check
  | batchOutcome points => .batch points fun o => .ok (.batch o)
  | fetch query => .order (.fetch query) Reply.table
  | first path archive => .order (.command (.first path archive)) Reply.time
  | last path => .order (.command (.last path)) Reply.time
  | info path => .order (.command (.info path)) Reply.texts
  | list path recursive => .order (.command (.list path recursive)) Reply.texts
  | flush path => .order (.command (.flush path)) Reply.nothing
  | flushAll => .order (.command .flushAll) Reply.nothing
  | pending path => .order (.command (.pending path)) Reply.texts
  | forget path => .order (.command (.forget path)) Reply.nothing
  | suspend path => .order (.command (.suspend path)) Reply.nothing
  | resume path => .order (.command (.resume path)) Reply.nothing
  | suspendAll => .order (.command .suspendAll) Reply.nothing
  | resumeAll => .order (.command .resumeAll) Reply.nothing
  | quit => .leave
  | close => .close
  | pingAndClose => .pingAndClose

open Course Dialogue

/-! ### Calls take their courses -/

/-- A request whose reply is only looked at is an exchange. -/
theorem request_bind {r : Request} {look : Reply → Dialogue Outcome}
    {decode : Reply → Except Error Outcome} (h : ∀ reply, look reply = ofExcept (decode reply)) :
    Client.request r >>= look = exchanging (ofExcept r.line) decode := by
  have hlook : look = fun reply => ofExcept (decode reply) := funext h
  rw [Client.request, bind_assoc, exchanging, hlook]

/-- Closing after a dialogue commutes with what is made of its result. -/
theorem map_closing {α β : Type} (f : α → β) (d : Dialogue α) :
    f <$> Client.closing d = Client.closing (f <$> d) := by
  rw [Client.closing, map_andThen, Client.closing, andThen_map]
  simp only [map_bind, map_ofExcept]

theorem silent_order (c : Command) :
    (Client.order c).silent = exchanging (ofExcept (Request.command c).line) Reply.nothing := by
  rw [silent, Client.order, map_bind]
  exact request_bind fun _ => rfl

theorem map_texts (c : Command) :
    Outcome.texts <$> Client.texts c
      = exchanging (ofExcept (Request.command c).line) Reply.texts := by
  rw [Client.texts, map_bind]
  exact request_bind fun _ => rfl

theorem map_time (c : Command) :
    Outcome.time <$> Client.time c
      = exchanging (ofExcept (Request.command c).line) Reply.time := by
  rw [Client.time, map_bind]
  exact request_bind fun _ => map_ofExcept _ _

theorem silent_expect (r : Request) (message : String) :
    (Client.expect r message).silent
      = exchanging (ofExcept r.line) (Reply.expected message) := by
  rw [silent, Client.expect, map_bind]
  apply request_bind
  intro reply
  rw [Reply.expected]
  split <;> rfl

theorem silent_update (path : String) (timestamp : Scalar) (values : List Scalar) :
    (Client.update path timestamp values).silent
      = exchanging (pointLine (Point.ofParts path timestamp values)) Reply.nothing := by
  simp only [silent, Client.update, exchanging, pointLine, map_eq_pure_bind, bind_assoc,
    pure_bind]
  rfl

/-- The dialogue of a call is that of its course. -/
theorem Call.dialogue_eq (c : Call) : c.dialogue = c.course.dialogue := by
  -- most calls are one of the kinds above; the others look at their reply in their own way
  cases c with
  | ping => exact silent_expect _ _
  | help topic =>
    rw [Call.dialogue, Client.help, map_bind]
    exact request_bind fun _ => rfl
  | stats =>
    rw [Call.dialogue, Client.stats, map_bind]
    apply request_bind
    intro reply
    rw [Reply.stats, ← map_ofExcept, map_bind, map_eq_pure_bind]
    rfl
  | queue =>
    rw [Call.dialogue, Client.queue, map_bind]
    exact request_bind fun _ => map_ofExcept _ _
  | create series => exact silent_expect _ _
  | update path timestamp values => exact silent_update _ _ _
  | updateOne path timestamp value => exact silent_update _ _ _
  | batch points =>
    rw [Call.dialogue, silent, Client.batch, map_bind]
    simp only [map_ofExcept]
    rfl
  | batchOutcome points =>
    rw [Call.dialogue, map_eq_pure_bind]
    rfl
  | fetch query =>
    rw [Call.dialogue, Client.fetch, map_bind]
    exact request_bind fun _ => map_ofExcept _ _
  | first path archive => exact map_time _
  | last path => exact map_time _
  | info path => exact map_texts _
  | list path recursive => exact map_texts _
  | pending path => exact map_texts _
  | flush _ | flushAll | forget _ | suspend _ | resume _ | suspendAll | resumeAll =>
    exact silent_order _
  | quit | close => rfl
  | pingAndClose =>
    rw [Call.dialogue, silent, map_closing]
    exact congrArg Client.closing (silent_expect _ _)

end RrdCache
