/-
RrdCache/Proofs/Program/Stages.lean

The stages of the program.  It dials, does its task, and closes the connection; each stage
finds the surroundings as the one before left them.  The program `Succeeds` if every stage
does; otherwise `LastError` is the error that was raised last, for closing comes after the task
whatever comes of it.

Main results: what the stages give is what the program gives (`Invocation.run_dialogue_ok` and
`run_dialogue_error`), and what it does (`Invocation.trace_dialogue`).
-/
import RrdCache.Proofs.Dialogue.Traffic
import RrdCache.Proofs.Program.Task

namespace RrdCache

open Dialogue

/-! ### Tasks -/

namespace Task

/-- The course of a task is one line and its reply. -/
theorem course_call {t : Task} {c : Call} (h : t.call = .ok c) :
    (∃ r decode, c.course = .order r decode) ∨ ∃ p, c.course = .update p := by
  cases t with
  | ping | stats | queue | flushAll | last _ | info _ | pending _ | flush _ | list _ _ =>
    obtain rfl := Except.ok.inj h
    exact .inl ⟨_, _, rfl⟩
  | first path archive =>
    cases archive with
    | given i =>
      obtain rfl := Except.ok.inj h
      exact .inl ⟨_, _, rfl⟩
    | blank => cases h
  | update path timestamp values =>
    obtain rfl := Except.ok.inj h
    exact .inr ⟨_, rfl⟩
  | fetch path consolidation start finish columns =>
    cases consolidation with
    | given f =>
      obtain rfl := Except.ok.inj h
      exact .inl ⟨_, _, rfl⟩
    | blank => cases h

/-- A task neither closes a connection nor dials. -/
theorem asks_dialogue (t : Task) :
    t.dialogue.Asks fun a => a ≠ .close ∧ ∀ address, a ≠ .dial address := by
  rw [dialogue]
  rcases h : t.call with e | c
  · exact asks_done _
  · have hencode : c.course.encode.Asks fun a => a ≠ .close ∧ ∀ address, a ≠ .dial address := by
      apply c.course.asks_encode.mono
      rintro a rfl
      simp
    have hsending (lines : List String) :
        (c.course.sending lines).Asks fun a => a ≠ .close ∧ ∀ address, a ≠ .dial address := by
      obtain ⟨r, decode, hcourse⟩ | ⟨p, hcourse⟩ := course_call h
      · rw [hcourse]
        exact Course.asks_delivering (by simp) (by simp) (by simp) (by simp) decode
      · rw [hcourse]
        exact Course.asks_delivering (by simp) (by simp) (by simp) (by simp) _
    rw [ofExcept_ok_bind, Call.dialogue_phases]
    exact (hencode.bind hsending).map _

end Task

/-! ### Opening and closing -/

/-- Waiting for the end of a connection, or keeping a record. -/
def Action.IsQuiet (a : Action) : Prop :=
  a = .waitClosed ∨ ∃ record, a = .log record

namespace Client

theorem run_logConnected (a : Address) (w : World) : ((logConnected a).run w).1 = .ok () := by
  rw [logConnected]
  cases a.text with
  | ok text => rfl
  | error e => rfl

/-- A connection is open if it was dialed. -/
theorem run_connect_ok {a : Address} {w : World} :
    ((connect a).run w).1 = .ok () ↔ (w.answer (.dial a)).1 = .ok () := by
  rw [connect, run_bind, run_perform]
  rcases (w.answer (.dial a)).1 with (t | t) | _
  · cases a.text <;> simp
  · simp
  · simp [run_logConnected]

/-- Closing comes first, and after it there are only waiting and records. -/
theorem trace_close (w : World) :
    ∃ after, close.trace w = ⟨.close, w.closing⟩ :: after ∧ ∀ e ∈ after, e.action.IsQuiet := by
  have hlog : logClosed.Asks Action.IsQuiet := (asks_log _ _ _).2 (.inr ⟨_, rfl⟩)
  refine ⟨_, rfl, fun e he => Asks.mem_trace (p := Action.IsQuiet) ?_ he⟩
  rcases (w.answer .close).1 with _ | _ | _
  · exact asks_done _
  · exact hlog
  · exact Asks.bind ((asks_perform _).2 (.inl rfl)) fun _ =>
      Asks.bind (asks_attempt _ _) fun _ => hlog

variable {α : Type}

theorem run_closing (d : Dialogue α) (w : World) :
    ((closing d).run w).1 =
      match (close.run (d.run w).2).1 with
      | .ok () => (d.run w).1
      | .error e => .error e := by
  rw [closing, run_andThen, run_bind]
  rcases (close.run (d.run w).2).1 with e | _ <;> rfl

theorem trace_closing (d : Dialogue α) (w : World) :
    (closing d).trace w = d.trace w ++ close.trace (d.run w).2 := by
  rw [closing, trace_andThen]
  congr 1
  rcases h : (close.run (d.run w).2).1 with e | _
  · exact trace_bind_error h
  · exact (trace_bind_ok h).trans (List.append_nil _)

end Client

/-! ### The stages -/

namespace Invocation

variable {i : Invocation} {setting : Option String} {time : String} {a : Address} {w : World}

/-- The surroundings after dialing. -/
def afterDial (a : Address) (w : World) : World :=
  ((Client.connect a).run w).2

/-- The surroundings after the task. -/
def afterTask (i : Invocation) (a : Address) (w : World) : World :=
  (i.task.dialogue.run (afterDial a w)).2

/-- The address is one, and dialing, the task and closing succeed. -/
structure Succeeds (i : Invocation) (setting : Option String) (w : World) (a : Address)
    (o : Output) : Prop where
  address : i.daemon setting = .ok a
  dial : (w.answer (.dial a)).1 = .ok ()
  task : (i.task.dialogue.run (afterDial a w)).1 = .ok o
  closing : (Client.close.run (i.afterTask a w)).1 = .ok ()

/-- The error that was raised last: of the address, of dialing, of the task, or of closing. -/
inductive LastError (i : Invocation) (setting : Option String) (w : World) (e : Error) : Prop
  | address (h : i.daemon setting = .error e)
  | dial {a : Address} (address : i.daemon setting = .ok a)
    (h : ((Client.connect a).run w).1 = .error e)
  | task {a : Address} (address : i.daemon setting = .ok a)
    (dial : (w.answer (.dial a)).1 = .ok ())
    (h : (i.task.dialogue.run (afterDial a w)).1 = .error e)
    (closing : (Client.close.run (i.afterTask a w)).1 = .ok ())
  | closing {a : Address} (address : i.daemon setting = .ok a)
    (dial : (w.answer (.dial a)).1 = .ok ())
    (h : (Client.close.run (i.afterTask a w)).1 = .error e)

theorem run_closing_task :
    ((Client.closing i.task.dialogue).run (afterDial a w)).1 =
      match (Client.close.run (i.afterTask a w)).1 with
      | .ok () => (i.task.dialogue.run (afterDial a w)).1
      | .error e => .error e :=
  Client.run_closing _ _

/-- Once it dialed, the program does not dial again. -/
theorem asks_closing_task :
    (Client.closing i.task.dialogue).Asks fun a => ∀ address, a ≠ .dial address := by
  apply (i.task.asks_dialogue.mono fun _ h => h.2).andThen
  intro _
  exact (Client.asks_close (by simp) (by simp) (by simp)).bind fun _ => asks_ofExcept _

section Run

variable {l : LogLevel} (hlevel : i.level = .given l)

include hlevel

theorem dialogue_of_level :
    i.dialogue setting = ofExcept (i.daemon setting) >>= fun address =>
      Client.connect address >>= fun _ => Client.closing i.task.dialogue := by
  rw [dialogue, hlevel]
  rfl

/-- After a dial that succeeded, the program does its task and closes. -/
theorem dialogue_of_dial (haddress : i.daemon setting = .ok a)
    (hdial : (w.answer (.dial a)).1 = .ok ()) :
    (i.dialogue setting).run w = (Client.closing i.task.dialogue).run (afterDial a w) ∧
      (i.dialogue setting).trace w =
        (Client.connect a).trace w ++ (Client.closing i.task.dialogue).trace (afterDial a w) := by
  have hconnect := Client.run_connect_ok.2 hdial
  rw [dialogue_of_level hlevel, haddress, ofExcept_ok_bind]
  exact ⟨run_bind_ok hconnect, trace_bind_ok hconnect⟩

theorem run_of_succeeds {o : Output} (h : i.Succeeds setting w a o) :
    ((i.dialogue setting).run w).1 = .ok o := by
  rw [(dialogue_of_dial hlevel h.address h.dial).1, run_closing_task, h.closing]
  exact h.task

theorem run_of_lastError {e : Error} (h : i.LastError setting w e) :
    ((i.dialogue setting).run w).1 = .error e := by
  cases h with
  | address h =>
    rw [dialogue_of_level hlevel, h]
    rfl
  | dial address h =>
    rw [dialogue_of_level hlevel, address, ofExcept_ok_bind, run_bind_error h]
  | @task a address dial h closing =>
    rw [(dialogue_of_dial hlevel address dial).1, run_closing_task, closing]
    exact h
  | @closing a address dial h =>
    rw [(dialogue_of_dial hlevel address dial).1, run_closing_task, h]

omit hlevel in
/-- The stages succeed, or there is a last error. -/
theorem succeeds_or_lastError (i : Invocation) (setting : Option String) (w : World) :
    (∃ a o, i.Succeeds setting w a o) ∨ ∃ e, i.LastError setting w e := by
  rcases haddress : i.daemon setting with e | a
  · exact .inr ⟨e, .address haddress⟩
  rcases hconnect : ((Client.connect a).run w).1 with e | _
  · exact .inr ⟨e, .dial haddress hconnect⟩
  have hdial := Client.run_connect_ok.1 hconnect
  rcases hclose : (Client.close.run (i.afterTask a w)).1 with e | _
  · exact .inr ⟨e, .closing haddress hdial hclose⟩
  rcases htask : (i.task.dialogue.run (afterDial a w)).1 with e | o
  · exact .inr ⟨e, .task haddress hdial htask hclose⟩
  · exact .inl ⟨a, o, haddress, hdial, htask, hclose⟩

/-- The program gives a result if its stages succeed. -/
theorem run_dialogue_ok {o : Output} :
    ((i.dialogue setting).run w).1 = .ok o ↔ ∃ a, i.Succeeds setting w a o := by
  refine ⟨fun h => ?_, fun ⟨a, ha⟩ => run_of_succeeds hlevel ha⟩
  obtain ⟨a, o', hsucceeds⟩ | ⟨e, he⟩ := i.succeeds_or_lastError setting w
  · obtain rfl := Except.ok.inj (h.symm.trans (run_of_succeeds hlevel hsucceeds))
    exact ⟨a, hsucceeds⟩
  · cases h.symm.trans (run_of_lastError hlevel he)

/-- The program gives the last error of its stages. -/
theorem run_dialogue_error {e : Error} :
    ((i.dialogue setting).run w).1 = .error e ↔ i.LastError setting w e := by
  refine ⟨fun h => ?_, run_of_lastError hlevel⟩
  obtain ⟨a, o, hsucceeds⟩ | ⟨e', he⟩ := i.succeeds_or_lastError setting w
  · cases h.symm.trans (run_of_succeeds hlevel hsucceeds)
  · obtain rfl := Except.error.inj (h.symm.trans (run_of_lastError hlevel he))
    exact he

/-- The first thing that the program does is to dial, and it does so only once. -/
theorem trace_dialogue (haddress : i.daemon setting = .ok a) :
    ∃ later, (i.dialogue setting).trace w = w.event (.dial a) :: later ∧
      ∀ e ∈ later, ∀ address, e.action ≠ .dial address := by
  obtain ⟨next, hconnect, hnext⟩ :=
    Client.connect_eq_ask (p := fun b => ∀ address, b ≠ .dial address) a (by simp)
  rw [dialogue_of_level hlevel, haddress, ofExcept_ok_bind, hconnect]
  refine ⟨_, rfl, fun e he => Asks.mem_trace (p := fun b => ∀ address, b ≠ .dial address) ?_ he⟩
  exact (hnext _).bind fun _ => asks_closing_task

/-- The program closes what it dialed. -/
theorem trace_dialogue_close (haddress : i.daemon setting = .ok a)
    (hdial : (w.answer (.dial a)).1 = .ok ()) :
    ∃ past later, (i.dialogue setting).trace w = past ++ ⟨.close, w.closing⟩ :: later ∧
      (∀ e ∈ past, e.action ≠ .close) ∧ ∀ e ∈ later, e.action.IsQuiet := by
  obtain ⟨later, htrace, hlater⟩ := Client.trace_close (i.afterTask a w)
  have hclosing : (i.afterTask a w).closing = w.closing := by
    rw [afterTask, run_closing, afterDial, run_closing]
  rw [hclosing] at htrace
  refine ⟨(Client.connect a).trace w ++ i.task.dialogue.trace (afterDial a w), later, ?_, ?_,
    hlater⟩
  · rw [(dialogue_of_dial hlevel haddress hdial).2, Client.trace_closing, ← List.append_assoc]
    exact congrArg _ htrace
  · intro e he
    rcases List.mem_append.1 he with he | he
    · have hconnect : (Client.connect a).Asks (· ≠ .close) :=
        Client.asks_connect (by simp) (by simp)
      exact hconnect.mem_trace he
    · exact (i.task.asks_dialogue.mem_trace he).1

end Run

/-! ### The report -/

theorem run_fst (i : Invocation) (setting : Option String) (time : String) (w : World) :
    (i.run setting time w).1 =
      i.report time ((i.dialogue setting).run w).1 ((i.dialogue setting).run w).2.log := rfl

/-- A line for each record that the program keeps. -/
def printed (i : Invocation) (setting : Option String) (time : String) (w : World) :
    List String :=
  logLines time i.level (i.run setting time w).2.log

/-- The log as it is printed. -/
def logText (i : Invocation) (setting : Option String) (time : String) (w : World) : String :=
  String.join (i.printed setting time w)

theorem run_of_ok {o : Output} (h : ((i.dialogue setting).run w).1 = .ok o) :
    (i.run setting time w).1 = .ok ⟨0, o.render i.json ++ "\n", i.logText setting time w⟩ := by
  rw [run_fst, h]
  rfl

theorem run_of_expected {e : Error} (h : ((i.dialogue setting).run w).1 = .error e)
    (he : e.isExpected) :
    (i.run setting time w).1 =
      .ok ⟨1, "", i.logText setting time w ++ "rrdc: " ++ e.message ++ "\n"⟩ := by
  rw [run_fst, h, report]
  exact if_pos he

theorem run_of_unexpected {e : Error} (h : ((i.dialogue setting).run w).1 = .error e)
    (he : e.isExpected = false) : (i.run setting time w).1 = .error e := by
  rw [run_fst, h, report]
  exact if_neg (by simp [he])

/-- At a blank level the program does nothing. -/
theorem dialogue_of_blank (h : i.level = .blank) :
    i.dialogue setting = fail (.blank .level) := by
  rw [dialogue, h]
  rfl

theorem run_of_blank (h : i.level = .blank) :
    (i.run setting time w).1 = .error (.blank .level) := by
  apply run_of_unexpected _ rfl
  rw [dialogue_of_blank h]
  rfl

/-- A program that reports was given a level. -/
theorem exists_level {r : Report} (h : (i.run setting time w).1 = .ok r) :
    ∃ l, i.level = .given l := by
  rcases hlevel : i.level with l | -
  · exact ⟨l, rfl⟩
  · cases h.symm.trans (run_of_blank hlevel)

end Invocation

end RrdCache
