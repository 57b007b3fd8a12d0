/-
RrdCache/Proofs/Dialogue/Traffic.lean

The traffic of a run: what it does to its connections, in order, with the answers.  It is the
trace without the looks at the clock and the records.  Dialogues that follow each other have
the traffic of the one and then that of the other (`traffic_andThen`).

What a run sends and what it takes off the coming bytes is read off its traffic
(`run_sent_traffic`, `run_received`).  `OnlyLooks` says that a run has no traffic at all, keeps
no record and leaves its surroundings as they are but for the clock; `Starts` says what the
traffic begins with.  A run in which nothing fails is one without a plan of faults
(`run_calm`).
-/
import RrdCache.Proofs.Dialogue.Frame

namespace RrdCache

/-- Whether an action is one on a connection. -/
def Action.isTransport : Action → Bool
  | look | log _ => false
  | readLine | write _ | drain | close | waitClosed | dial _ => true

namespace Event

/-- The bytes that an event took. -/
def received : Event → List UInt8
  | ⟨.readLine, .ok bytes⟩ => bytes
  | _ => []

/-- Whether an event is an action that failed. -/
def Failed : Event → Prop
  | ⟨.readLine, .error _⟩ | ⟨.write _, .error _⟩ | ⟨.drain, .error _⟩
  | ⟨.waitClosed, .error _⟩ | ⟨.dial _, .error _⟩ => True
  | _ => False

theorem sent_of_not_transport {e : Event} (h : e.action.isTransport = false) : e.sent = [] := by
  obtain ⟨a, answer⟩ := e
  cases a with
  | look | log _ => rfl
  | readLine | write _ | drain | close | waitClosed | dial _ => cases h

theorem received_of_not_transport {e : Event} (h : e.action.isTransport = false) :
    e.received = [] := by
  obtain ⟨a, answer⟩ := e
  cases a with
  | look | log _ => rfl
  | readLine | write _ | drain | close | waitClosed | dial _ => cases h

theorem isTransport_of_failed {e : Event} (h : e.Failed) : e.action.isTransport := by
  obtain ⟨a, answer⟩ := e
  cases a with
  | look | log _ => exact absurd h id
  | readLine | write _ | drain | close | waitClosed | dial _ => rfl

end Event

namespace World

/-- What an action takes stands in front of what it leaves. -/
theorem answer_received (w : World) (a : Action) :
    w.incoming = (w.event a).received ++ (w.answer a).2.incoming := by
  by_cases ha : a = .readLine
  · subst ha
    rcases hf : w.planned? .read (w.uses .read + 1) with - | f
    · simp [event, answer_readLine_of_none hf, Event.received, cutLine_append]
    · simp only [event, answer_readLine_of_fault hf, Event.received, List.nil_append]
      rfl
  · rw [answer_incoming ha]
    cases a with
    | readLine => exact absurd rfl ha
    | write _ | drain | close | waitClosed | dial _ | look | log _ => rfl

/-- The world without a plan of faults. -/
def calm (w : World) : World :=
  { w with faults := [] }

/-- An action that does not fail is one that no fault was planned for. -/
theorem answer_calm {w : World} {a : Action} (h : ¬ (w.event a).Failed) :
    w.calm.answer a = ((w.answer a).1, (w.answer a).2.calm) := by
  cases a with
  | readLine | write _ | drain | waitClosed | dial _ =>
    simp only [event, answer, use] at h ⊢
    split at h
    · exact absurd trivial h
    · rfl
  | close | look | log _ => rfl

end World

namespace Dialogue

variable {α β : Type}

theorem trace_andThen (d : Dialogue α) (f : Except Error α → Dialogue β) (w : World) :
    (d.andThen f).trace w = d.trace w ++ (f (d.run w).1).trace (d.run w).2 := by
  induction d generalizing w with
  | done r => rfl
  | ask a next ih => exact congrArg (w.event a :: ·) (ih _ _)

/-- What a run does to its connections, in order, with the answers. -/
def traffic (d : Dialogue α) (w : World) : List Event :=
  (d.trace w).filter (·.action.isTransport)

@[simp] theorem traffic_done (r : Except Error α) (w : World) : (done r).traffic w = [] := rfl

@[simp] theorem traffic_ofExcept (r : Except Error α) (w : World) :
    (ofExcept r).traffic w = [] := rfl

@[simp] theorem traffic_record (level : LogLevel) (source : LogSource) (text : String)
    (w : World) : (log level source text).traffic w = [] := rfl

@[simp] theorem traffic_perform {a : Action} (ha : a.isTransport) (w : World) :
    (perform a).traffic w = [w.event a] :=
  List.filter_eq_self.2 fun e he => by rwa [List.mem_singleton.1 he]

theorem traffic_andThen (d : Dialogue α) (f : Except Error α → Dialogue β) (w : World) :
    (d.andThen f).traffic w = d.traffic w ++ (f (d.run w).1).traffic (d.run w).2 := by
  rw [traffic, trace_andThen, List.filter_append]
  rfl

theorem traffic_bind_ok {d : Dialogue α} {f : α → Dialogue β} {w : World} {a : α}
    (h : (d.run w).1 = .ok a) :
    (d >>= f).traffic w = d.traffic w ++ (f a).traffic (d.run w).2 := by
  rw [bind_eq, bind, traffic_andThen, h]

theorem traffic_bind_error {d : Dialogue α} {f : α → Dialogue β} {w : World} {e : Error}
    (h : (d.run w).1 = .error e) : (d >>= f).traffic w = d.traffic w := by
  rw [bind_eq, bind, traffic_andThen, h]
  exact List.append_nil _

theorem trace_bind_ok {d : Dialogue α} {f : α → Dialogue β} {w : World} {a : α}
    (h : (d.run w).1 = .ok a) :
    (d >>= f).trace w = d.trace w ++ (f a).trace (d.run w).2 := by
  rw [bind_eq, bind, trace_andThen, h]

theorem trace_bind_error {d : Dialogue α} {f : α → Dialogue β} {w : World} {e : Error}
    (h : (d.run w).1 = .error e) : (d >>= f).trace w = d.trace w := by
  rw [bind_eq, bind, trace_andThen, h]
  exact List.append_nil _

@[simp] theorem traffic_map (g : α → β) (d : Dialogue α) (w : World) :
    (g <$> d).traffic w = d.traffic w := by
  rw [map_eq_pure_bind]
  rcases h : (d.run w).1 with e | a
  · exact traffic_bind_error h
  · rw [traffic_bind_ok h]
    exact List.append_nil _

/-- A dialogue that uses no connection has no traffic. -/
theorem traffic_of_asks {d : Dialogue α} (hd : d.Asks (·.isTransport = false)) (w : World) :
    d.traffic w = [] := by
  apply List.filter_eq_nil_iff.2
  intro e he
  rw [hd.mem_trace he]
  exact Bool.false_ne_true

theorem mem_traffic {d : Dialogue α} {w : World} {e : Event} :
    e ∈ d.traffic w ↔ e ∈ d.trace w ∧ e.action.isTransport :=
  List.mem_filter

/-- What only transports do is read off the traffic as well as off the trace. -/
theorem flatMap_traffic {γ : Type} {g : Event → List γ}
    (hg : ∀ e, e.action.isTransport = false → g e = []) (d : Dialogue α) (w : World) :
    (d.traffic w).flatMap g = (d.trace w).flatMap g := by
  rw [traffic]
  induction d.trace w with
  | nil => rfl
  | cons e events ih =>
    by_cases he : e.action.isTransport
    · rw [List.filter_cons, if_pos he, List.flatMap_cons, List.flatMap_cons, ih]
    · rw [List.filter_cons, if_neg he, List.flatMap_cons, hg e (by simpa using he), ih]
      rfl

/-- What is sent in a run. -/
theorem run_sent_traffic (d : Dialogue α) (w : World) :
    (d.run w).2.sent = w.sent ++ (d.traffic w).flatMap Event.sent := by
  rw [run_sent, flatMap_traffic fun _ => Event.sent_of_not_transport]

/-- What is taken in a run stands in front of what is left. -/
theorem run_received (d : Dialogue α) (w : World) :
    w.incoming = (d.traffic w).flatMap Event.received ++ (d.run w).2.incoming := by
  rw [flatMap_traffic fun _ => Event.received_of_not_transport]
  induction d generalizing w with
  | done r => rfl
  | ask a next ih =>
    rw [trace, List.flatMap_cons, List.append_assoc, run, ← ih]
    exact w.answer_received a

/-! ### Runs in which nothing fails -/

/-- If nothing fails, then everything is as it is without a plan of faults. -/
theorem run_calm {d : Dialogue α} {w : World} (h : ∀ e ∈ d.traffic w, ¬ e.Failed) :
    d.run w.calm = ((d.run w).1, (d.run w).2.calm) := by
  have htrace : ∀ e ∈ d.trace w, ¬ e.Failed := fun e he hfailed =>
    h e (mem_traffic.2 ⟨he, Event.isTransport_of_failed hfailed⟩) hfailed
  clear h
  induction d generalizing w with
  | done r => rfl
  | ask a next ih =>
    obtain ⟨hfirst, hlater⟩ := List.forall_mem_cons.1 htrace
    rw [run, World.answer_calm hfirst]
    exact ih _ hlater

/-! ### Runs without traffic -/

/-- A run does nothing but look at the clock, and leaves all but the clock as it is. -/
structure OnlyLooks (d : Dialogue α) (w : World) : Prop where
  looks : ∀ e ∈ d.trace w, e.action = .look
  world : (d.run w).2 = w.withClock (d.run w).2.clock

theorem Asks.onlyLooks {d : Dialogue α} (hd : d.Asks (· = .look)) (w : World) :
    d.OnlyLooks w :=
  ⟨fun _ he => hd.mem_trace he, (run_of_looks hd w w rfl).2⟩

/-- A dialogue that fails before it goes on only looks if its first part does. -/
theorem OnlyLooks.bind {d : Dialogue α} {f : α → Dialogue β} {w : World} {e : Error}
    (hd : d.OnlyLooks w) (h : (d.run w).1 = .error e) : (d >>= f).OnlyLooks w := by
  refine ⟨?_, ?_⟩
  · rw [trace_bind_error h]
    exact hd.looks
  · rw [run_bind_error h]
    exact hd.world

/-- Looking is no traffic. -/
theorem OnlyLooks.traffic {d : Dialogue α} {w : World} (hd : d.OnlyLooks w) :
    d.traffic w = [] := by
  apply List.filter_eq_nil_iff.2
  intro e he
  rw [hd.looks e he]
  exact Bool.false_ne_true

/-! ### What traffic begins with -/

/-- The first thing that a dialogue does to a connection, wherever it runs, is to hand over
this line. -/
def Starts (d : Dialogue α) (line : String) : Prop :=
  ∀ w, ∃ answer after, d.traffic w = ⟨.write line, answer⟩ :: after

namespace Starts

variable {d : Dialogue α} {line : String}

theorem andThen (hd : d.Starts line) (f : Except Error α → Dialogue β) :
    (d.andThen f).Starts line := by
  intro w
  obtain ⟨answer, after, h⟩ := hd w
  rw [traffic_andThen, h]
  exact ⟨answer, _, rfl⟩

theorem bind (hd : d.Starts line) (f : α → Dialogue β) : (d >>= f).Starts line :=
  hd.andThen _

theorem map (hd : d.Starts line) (g : α → β) : (g <$> d).Starts line := by
  intro w
  rw [traffic_map]
  exact hd w

end Starts

end Dialogue

end RrdCache
