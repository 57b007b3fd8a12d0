/-
RrdCache/Proofs/Dialogue/Trace.lean

What a run does, in order.  The trace of a dialogue in a world is the list of its actions
with the world's answers.  What was sent, dialed and logged, whether a connection was
closed and how often an operation was used are all read off the trace (`run_sent`,
`run_dialed`, `run_log`, `run_closed`, `run_uses`), so two runs with the same trace have done
the same.
-/
import RrdCache.Proofs.Dialogue.Run

namespace RrdCache

/-- An action that was taken, and the answer to it. -/
structure Event where
  action : Action
  answer : action.Answer

namespace Event

/-- The texts that an event put on the wire. -/
def sent : Event → List String
  | ⟨.write line, .ok _⟩ => [line]
  | _ => []

/-- The records that an event kept. -/
def logged : Event → List LogRecord
  | ⟨.log record, _⟩ => [record]
  | _ => []

/-- The addresses that an event dialed. -/
def dialed : Event → List Address
  | ⟨.dial address, _⟩ => [address]
  | _ => []

/-- Whether an event closed a connection. -/
def closes : Event → Bool
  | ⟨.close, way⟩ => way != .unable
  | _ => false

/-- The operation that an event used, if it is one that can fail. -/
def operation? : Event → Option Operation
  | ⟨.readLine, _⟩ => some .read
  | ⟨.write _, _⟩ => some .write
  | ⟨.drain, _⟩ => some .drain
  | ⟨.waitClosed, _⟩ => some .waitClosed
  | ⟨.dial _, _⟩ => some .dial
  | _ => none

/-- Whether an event, if it read bytes, read a whole line. -/
def ReadsWhole : Event → Prop
  | ⟨.readLine, .ok bytes⟩ => bytes.getLast? = some 10
  | _ => True

end Event

/-! ### One action -/

attribute [ext] World

namespace World

/-- The world with one more use of an operation. -/
def counted (w : World) (op : Operation) : World :=
  { w with uses := fun o => if o = op then w.uses op + 1 else w.uses o }

theorem use_of_fault {α : Type} {w : World} {op : Operation} {f : Fault}
    (act : World → α × World) (h : w.planned? op (w.uses op + 1) = some f) :
    w.use op act = (.error f, w.counted op) := by
  simp only [use, h, counted]

theorem use_of_none {α : Type} {w : World} {op : Operation}
    (act : World → α × World) (h : w.planned? op (w.uses op + 1) = none) :
    w.use op act = (.ok (act (w.counted op)).1, (act (w.counted op)).2) := by
  simp only [use, h, counted]

theorem planned?_of_calm {w : World} (hw : w.faults = []) (op : Operation) (n : Nat) :
    w.planned? op n = none := by
  simp [planned?, hw]

theorem use_of_calm {α : Type} {w : World} {op : Operation} (act : World → α × World)
    (hw : w.faults = []) :
    w.use op act = (.ok (act (w.counted op)).1, (act (w.counted op)).2) :=
  use_of_none act (planned?_of_calm hw op _)

/-- The event of an action in a world. -/
def event (w : World) (a : Action) : Event := ⟨a, (w.answer a).1⟩

theorem answer_sent (w : World) (a : Action) :
    (w.answer a).2.sent = w.sent ++ (w.event a).sent := by
  cases a with
  | readLine | write _ | drain | waitClosed | dial _ =>
    simp only [event, answer, use]
    split <;> simp [Event.sent]
  | close | look | log _ => simp [event, answer, Event.sent]

theorem answer_log (w : World) (a : Action) :
    (w.answer a).2.log = w.log ++ (w.event a).logged := by
  cases a with
  | readLine | write _ | drain | waitClosed | dial _ =>
    simp only [event, answer, use]
    split <;> simp [Event.logged]
  | close | look | log _ => simp [event, answer, Event.logged]

theorem answer_dialed (w : World) (a : Action) :
    (w.answer a).2.dialed = w.dialed ++ (w.event a).dialed := by
  cases a with
  | readLine | write _ | drain | waitClosed | dial _ =>
    simp only [event, answer, use]
    split <;> simp [Event.dialed]
  | close | look | log _ => simp [event, answer, Event.dialed]

theorem answer_closed (w : World) (a : Action) :
    (w.answer a).2.closed = (w.closed || (w.event a).closes) := by
  cases a with
  | readLine | write _ | drain | waitClosed | dial _ =>
    simp only [event, answer, use]
    split <;> simp [Event.closes]
  | close | look | log _ => simp [event, answer, Event.closes]

theorem answer_uses (w : World) (a : Action) (op : Operation) :
    (w.answer a).2.uses op =
      w.uses op + if (w.event a).operation? = some op then 1 else 0 := by
  cases a with
  | readLine | write _ | drain | waitClosed | dial _ =>
    simp only [event, answer, use]
    split <;> cases op <;> simp [Event.operation?]
  | close | look | log _ => simp [event, answer, Event.operation?]

end World

/-! ### Traces -/

namespace Dialogue

variable {α : Type}

/-- What a dialogue does in a world: its actions in order, each with its answer. -/
def trace : Dialogue α → World → List Event
  | done _, _ => []
  | ask a next, w => w.event a :: (next (w.answer a).1).trace (w.answer a).2

@[simp] theorem trace_done (r : Except Error α) (w : World) : (done r).trace w = [] := rfl

/-- What is sent in a run. -/
theorem run_sent (d : Dialogue α) (w : World) :
    (d.run w).2.sent = w.sent ++ (d.trace w).flatMap Event.sent := by
  induction d generalizing w with
  | done r => simp
  | ask a next ih =>
    simp only [run, trace, List.flatMap_cons, ih, World.answer_sent, List.append_assoc]

/-- What is logged in a run. -/
theorem run_log (d : Dialogue α) (w : World) :
    (d.run w).2.log = w.log ++ (d.trace w).flatMap Event.logged := by
  induction d generalizing w with
  | done r => simp
  | ask a next ih =>
    simp only [run, trace, List.flatMap_cons, ih, World.answer_log, List.append_assoc]

/-- What is dialed in a run. -/
theorem run_dialed (d : Dialogue α) (w : World) :
    (d.run w).2.dialed = w.dialed ++ (d.trace w).flatMap Event.dialed := by
  induction d generalizing w with
  | done r => simp
  | ask a next ih =>
    simp only [run, trace, List.flatMap_cons, ih, World.answer_dialed, List.append_assoc]

/-- Whether a connection is closed after a run. -/
theorem run_closed (d : Dialogue α) (w : World) :
    (d.run w).2.closed = (w.closed || (d.trace w).any Event.closes) := by
  induction d generalizing w with
  | done r => simp
  | ask a next ih =>
    simp only [run, trace, List.any_cons, ih, World.answer_closed, Bool.or_assoc]

/-- How often an operation is used in a run. -/
theorem run_uses (d : Dialogue α) (w : World) (op : Operation) :
    (d.run w).2.uses op = w.uses op + (d.trace w).countP fun e => e.operation? = some op := by
  induction d generalizing w with
  | done r => simp
  | ask a next ih =>
    simp only [run, trace, ih, World.answer_uses, List.countP_cons, decide_eq_true_eq]
    omega

/-- A class of actions that holds every action of a dialogue holds those of its trace. -/
theorem Asks.mem_trace {p : Action → Prop} {d : Dialogue α} (hd : d.Asks p) {w : World}
    {e : Event} (he : e ∈ d.trace w) : p e.action := by
  induction d generalizing w with
  | done r => simp at he
  | ask a next ih =>
    rcases List.mem_cons.1 he with rfl | he
    · exact hd.1
    · exact ih _ (hd.2 _) he

end Dialogue

end RrdCache
