/-
RrdCache/Client/Calls.lean

What a client offers over an open connection.  Each request has its dialogue; `Call` lists
them all, and `Call.dialogue` performs one and gives its `Outcome`.
-/
import RrdCache.Client.Updates
import RrdCache.Client.Connection
import RrdCache.Reply.Table

namespace RrdCache

namespace Client

/-- Sends a command whose reply says nothing. -/
def order (c : Command) : Dialogue Unit := do
  let _ ← request (.command c)

/-- Sends a command and gives the lines of its reply, without their line feeds. -/
def texts (c : Command) : Dialogue (List String) := do
  let reply ← request (.command c)
  pure (reply.lines.map chomp)

/-- Sends a command whose reply's message is a time. -/
def time (c : Command) : Dialogue Nat := do
  let reply ← request (.command c)
  Dialogue.ofExcept (readTimestamp reply.message)

/-- Sends a request whose reply must have a certain message. -/
def expect (r : Request) (message : String) : Dialogue Unit := do
  let reply ← request r
  if reply.message = message then pure ()
  else Dialogue.fail (.unexpected reply.message message)

/-- Asks whether the daemon is there. -/
def ping : Dialogue Unit :=
  expect (.command .ping) "PONG"

/-- Asks for help: a headline and the lines after it. -/
def help (topic : Option String) : Dialogue (String × List String) := do
  let reply ← request (.command (.help topic))
  pure (reply.message, reply.lines.map chomp)

/-- Asks for the daemon's statistics. -/
def stats : Dialogue (List Statistic) := do
  let reply ← request (.command .stats)
  let all ← Dialogue.ofExcept (reply.lines.mapM Statistic.ofLine)
  pure (Statistic.collect all)

/-- Asks for the queue of databases to be written. -/
def queue : Dialogue (List QueueEntry) := do
  let reply ← request (.command .queue)
  Dialogue.ofExcept (reply.lines.mapM QueueEntry.ofLine)

/-- Creates a database. -/
def create (s : Series) : Dialogue Unit :=
  expect (.create s) "RRD created OK"

/-- Asks for data. -/
def fetch (q : Query) : Dialogue Table := do
  let reply ← request (.fetch q)
  Dialogue.ofExcept (Table.ofLines reply.lines)

/-- Takes leave: the daemon hangs up without a reply. -/
def quit : Dialogue Unit := do
  let line ← Dialogue.ofExcept Command.quit.line
  writeLine line

end Client

/-- What can be done over an open connection. -/
inductive Call
  | ping
  | help (topic : Option String)
  | stats
  | queue
  | create (series : Series)
  | update (path : String) (timestamp : Scalar) (values : List Scalar)
  | updateOne (path : String) (timestamp value : Scalar)
  | batch (points : List Point)
  | batchOutcome (points : List Point)
  | fetch (query : Query)
  | first (path : String) (archive : Int)
  | last (path : String)
  | info (path : String)
  | list (path : String) (recursive : Bool)
  | flush (path : String)
  | flushAll
  | pending (path : String)
  | forget (path : String)
  | suspend (path : String)
  | resume (path : String)
  | suspendAll
  | resumeAll
  | quit
  | close
  | pingAndClose
deriving DecidableEq

/-- What a call gives. -/
inductive Outcome
  | nothing
  | time (seconds : Nat)
  | texts (lines : List String)
  | help (headline : String) (lines : List String)
  | stats (all : List Statistic)
  | queue (entries : List QueueEntry)
  | batch (outcome : BatchOutcome)
  | table (table : Table)
deriving DecidableEq

/-- A dialogue that gives nothing, as one with an outcome. -/
def Dialogue.silent (d : Dialogue Unit) : Dialogue Outcome :=
  (fun _ => .nothing) <$> d

/-- The dialogue of a call. -/
def Call.dialogue : Call → Dialogue Outcome
  | ping => Client.ping.silent
  | help topic => (fun (headline, lines) => .help headline lines) <$> Client.help topic
  | stats => .stats <$> Client.stats
  | queue => .queue <$> Client.queue
  | create series => (Client.create series).silent
  | update path timestamp values => (Client.update path timestamp values).silent
  | updateOne path timestamp value => (Client.update path timestamp [value]).silent
  | batch points => (Client.batch points).silent
  | batchOutcome points => .batch <$> Client.batchOutcome points
  | fetch query => .table <$> Client.fetch query
  | first path archive => .time <$> Client.time (.first path archive)
  | last path => .time <$> Client.time (.last path)
  | info path => .texts <$> Client.texts (.info path)
  | list path recursive => .texts <$> Client.texts (.list path recursive)
  | flush path => (Client.order (.flush path)).silent
  | flushAll => (Client.order .flushAll).silent
  | pending path => .texts <$> Client.texts (.pending path)
  | forget path => (Client.order (.forget path)).silent
  | suspend path => (Client.order (.suspend path)).silent
  | resume path => (Client.order (.resume path)).silent
  | suspendAll => (Client.order .suspendAll).silent
  | resumeAll => (Client.order .resumeAll).silent
  | quit => Client.quit.silent
  | close => Client.close.silent
  | pingAndClose => (Client.closing Client.ping).silent

end RrdCache
