/-
RrdCache/CommandLine/Program.lean

The program: it opens a connection, performs one task, closes the connection, and reports.
The report holds the exit code and what goes to the two output streams: the result, or
the log and one line for the error.  A few errors are not expected; at these the program
breaks off without a report.
-/
import RrdCache.CommandLine.Invocation
import RrdCache.CommandLine.Output
import RrdCache.Client.Calls
import RrdCache.World

namespace RrdCache

/-! ### Printing -/

/-- A number of a row; one that is no number is missing. -/
def Output.ofNumber (x : Binary64) : Output :=
  if x.isNaN then .missing else .number x

/-- A row: its time and its values. -/
def Output.ofRow (r : Row) : Output :=
  .list [.whole r.time, .list (r.values.map ofNumber)]

/-- A table. -/
def Output.ofTable (t : Table) : Output :=
  .record
    [("flush_version", .whole t.flushVersion),
     ("start", .whole t.start),
     ("end", .whole t.finish),
     ("step", .whole t.step),
     ("ds_names", .list (t.sourceNames.map .text)),
     ("rows", .list (t.rows.map ofRow))]

/-- An entry of the queue. -/
def Output.ofQueueEntry (e : QueueEntry) : Output :=
  .record [("path", .text e.path), ("pending", .whole e.pending)]

/-- A field for a statistic. -/
def Output.ofStatistic (s : Statistic) : String × Output :=
  (s.name, .whole s.value)

/-! ### Tasks -/

/-- The value in a slot, if it is not blank. -/
def Slot.value {α : Type} (cause : BlankError) : Slot α → Except Error α
  | given a => .ok a
  | blank => .error (.blank cause)

/-- The call that a task is. -/
def Task.call : Task → Except Error Call
  | ping => .ok .ping
  | stats => .ok .stats
  | queue => .ok .queue
  | flushAll => .ok .flushAll
  | last path => .ok (.last path)
  | info path => .ok (.info path)
  | pending path => .ok (.pending path)
  | flush path => .ok (.flush path)
  | first path archive => do
    let archive ← archive.value .archive
    .ok (.first path archive)
  | list path recursive => .ok (.list path recursive)
  | update path timestamp values =>
    .ok (.update path ((timestamp.map Slot.toScalar).getD .null) (values.map .float))
  | fetch path consolidation start finish columns => do
    let consolidation ← consolidation.value .consolidation
    .ok (.fetch ⟨path, .text consolidation.word, start, finish,
      if columns = some [] then none else columns⟩)

/-- What is printed when a task that gives nothing is done. -/
def Task.doneText : Task → String
  | ping => "PONG"
  | update .. => "updated"
  | _ => "flushed"

/-- What is printed for an outcome; `done` is for outcomes that say nothing. -/
def Outcome.output (done : String) : Outcome → Output
  | nothing => .text done
  | time t => .whole t
  | texts lines => .list (lines.map .text)
  | help headline lines => .list ((headline :: lines).map .text)
  | stats all => .record (all.map Output.ofStatistic)
  | queue entries => .list (entries.map Output.ofQueueEntry)
  | batch o => .record [("message", .text o.message), ("errors", .list (o.errors.map .text))]
  | table t => .ofTable t

/-- The dialogue of a task: its call, and what is printed of the outcome. -/
def Task.dialogue (t : Task) : Dialogue Output := do
  let call ← Dialogue.ofExcept t.call
  Outcome.output t.doneText <$> call.dialogue

namespace Invocation

/-- The address to connect to; an empty one does not count as given.  `setting` is the
address that the environment gives. -/
def daemon (i : Invocation) (setting : Option String) : Except Error Address :=
  match i.address with
  | none => Address.ofSetting setting
  | some text => if text = "" then Address.ofSetting setting else Address.ofText text

/-- Everything the program does with the daemon, once it knows what to log. -/
def dialogue (i : Invocation) (setting : Option String) : Dialogue Output := do
  let _ ← Dialogue.ofExcept (i.level.value .level)
  let address ← Dialogue.ofExcept (i.daemon setting)
  Client.connect address
  Client.closing i.task.dialogue

end Invocation

/-! ### Reports -/

/-- How the program ends: its exit code, and what it prints on both streams. -/
structure Report where
  exitCode : Nat
  output : String
  errors : String
deriving DecidableEq, Repr

/-- A record on a line of its own, after its time. -/
def LogRecord.line (time : String) (r : LogRecord) : String :=
  time ++ " [" ++ r.level.word ++ "] " ++ r.text ++ "\n"

/-- Whether a record matters as much as a level, or more.  Nothing matters to a blank level. -/
def LogRecord.isKept (level : Slot LogLevel) (r : LogRecord) : Bool :=
  match level with
  | .given l => l.rank ≤ r.level.rank
  | .blank => false

/-- The lines of the records that matter as much as a level, or more. -/
def logLines (time : String) (level : Slot LogLevel) (log : List LogRecord) : List String :=
  (log.filter (LogRecord.isKept level)).map (LogRecord.line time)

/-- Whether the program expects an error.  It expects every error of the library, and of the
others those that say that a value is wrong; it does not expect that a blank archive or level
gets so far, that a number is beyond what can be converted, or that the system fails in an
operation that does not say so. -/
def Error.isExpected : Error → Bool
  | .blank .archive => false
  | .blank .level => false
  | .numeral .wholeOfInfinity => false
  | .numeral .beyondDoubles => false
  | .fault (.system _) => false
  | _ => true

/-- The report on a result and a log; `time` stands for the time of each record.  An error
that is not expected has no report. -/
def Invocation.report (i : Invocation) (time : String) (result : Except Error Output)
    (log : List LogRecord) : Except Error Report :=
  let lines := String.join (logLines time i.level log)
  match result with
  | .ok o => .ok ⟨0, o.render i.json ++ "\n", lines⟩
  | .error e =>
    if e.isExpected then .ok ⟨1, "", lines ++ "rrdc: " ++ e.message ++ "\n"⟩ else .error e

/-- Runs the program in scripted surroundings; `time` stands for the time of each record. -/
def Invocation.run (i : Invocation) (setting : Option String) (time : String) (w : World) :
    Except Error Report × World :=
  let (result, w') := (i.dialogue setting).run w
  (i.report time result w'.log, w')

/-- The exit code for a line that is not carried out. -/
def Stop.exitCode : Stop → Nat
  | help => 0
  | usage => 2

end RrdCache
