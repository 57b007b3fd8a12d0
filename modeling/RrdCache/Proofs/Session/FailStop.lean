/-
RrdCache/Proofs/Session/FailStop.lean

Where a call stops.  Any use of the connection may fail, at any point of a call: while a batch
is opened, between two of its updates, in the middle of a reply.  Each part of the client is a
dialogue that stops at its first failure, and so are the calls put together from them; the ping
that closes its connection is such a dialogue with the closing after it.

Main result (`Step.stops_at_failure`): after a failed action nothing is read, written or dialed
any more, what was sent and taken is what the actions before it sent and took, and the failure
decides the result.  `Event.Decides` tells which result that is, and has one case that the rest
does not lead one to expect (`Step.not_always_translated`).
-/
import RrdCache.Proofs.Client.Phases
import RrdCache.Proofs.Dialogue.FailStop
import RrdCache.Proofs.Program.Stages
import RrdCache.Proofs.Session.Lines

namespace RrdCache

open Dialogue

/-! ### Parts of a client -/

namespace Client

theorem failStop_writeLine (line : String) : (writeLine line).FailStop := by
  apply FailStop.bind (failStop_of_asks ((asks_log _ _ _).2 rfl))
  intro _
  apply failStop_perform_bind
  · rintro (f | _) err h
    · obtain rfl := Option.some.inj h
      rfl
    · cases h
  rintro (f | _)
  · trivial
  · apply failStop_perform_bind
    · rintro (f | _) err h
      · obtain rfl := Option.some.inj h
        rfl
      · cases h
    · rintro (f | _) <;> trivial

theorem failStop_writeLines (lines : List String) : (writeLines lines).FailStop := by
  induction lines with
  | nil => exact failStop_pure ()
  | cons line lines ih => exact (failStop_writeLine line).bind fun _ => ih

theorem failStop_readLine : readLine.FailStop := by
  apply failStop_perform_bind
  · rintro (f | _) err h
    · obtain rfl := Option.some.inj h
      rfl
    · cases h
  · rintro (f | bytes)
    · trivial
    · exact failStop_ofExcept _

theorem failStop_readLines (n : Nat) : (readLines n).FailStop := by
  induction n with
  | zero => exact failStop_pure []
  | succ n ih =>
    apply failStop_readLine.bind
    intro _
    exact ih.bind fun _ => failStop_pure _

theorem failStop_readStatus : readStatus.FailStop := by
  apply failStop_readLine.andThen
  · -- only bytes that are no text get another error, and they were read without a failure
    intro e err h
    obtain ⟨op, f, -, hspeechless, hbecomes⟩ := Event.becomes_of_failure? h
    have hsame : asStatusError err = err := by
      by_cases hunspeakable : e.Unspeakable
      · rw [hspeechless hunspeakable]
        rfl
      · cases hbecomes hunspeakable <;> rfl
    exact congrArg fail hsame
  · rintro (e | line)
    · exact failStop_fail _
    · apply FailStop.bind (failStop_ofExcept _)
      rintro (⟨message, pending⟩ | ⟨code, message⟩)
      · exact failStop_of_asks (Asks.bind ((asks_log _ _ _).2 rfl) fun _ => asks_done _)
      · exact failStop_of_asks (Asks.bind ((asks_log _ _ _).2 rfl) fun _ => asks_fail _)

theorem failStop_readReply : readReply.FailStop := by
  apply failStop_readStatus.bind
  intro _
  exact (failStop_readLines _).bind fun _ => failStop_pure _

theorem failStop_exchange (line : String) : (exchange line).FailStop :=
  (failStop_writeLine line).bind fun _ => failStop_readReply

theorem failStop_close : close.FailStop := by
  apply failStop_perform_bind
  · intro way err h
    cases h
  have hlog : logClosed.FailStop := failStop_of_asks ((asks_log _ _ _).2 rfl)
  rintro (_ | _ | _)
  · exact failStop_pure ()
  · exact hlog
  · apply failStop_perform_bind
    · rintro (f | _) err h
      · obtain rfl := Option.some.inj h
        rfl
      · cases h
    · rintro (f | _)
      · trivial
      · exact hlog

theorem failStop_connect (a : Address) : (connect a).FailStop := by
  apply failStop_perform_bind
  · rintro ((t | t) | _) err h
    · obtain rfl := Option.some.inj h
      show (ofExcept a.text >>= fun text => fail (.transport (.connect text t))) = _
      rw [Address.refusal]
      rcases a.text with e | text <;> rfl
    · obtain rfl := Option.some.inj h
      rfl
    · cases h
  · rintro ((t | t) | _)
    · exact FailStop.bind (failStop_ofExcept _) fun _ => failStop_fail _
    · exact failStop_fail _
    · exact failStop_of_asks (asks_logConnected a fun _ => rfl)

/-! ### Closing -/

/-- Closing gives a value if the wait for it does not fail. -/
theorem run_close_ok {w : World} (h : ∀ e ∈ close.trace w, ¬ e.Failed) :
    (close.run w).1 = .ok () := by
  have hclose : ((perform .close).run w).1 = .ok w.closing := rfl
  rw [close, run_bind_ok hclose]
  rw [close, trace_bind_ok hclose] at h
  have hlater := fun e he => h e (List.mem_append_right _ he)
  clear h hclose
  generalize ((perform .close).run w).2 = v at hlater ⊢
  generalize w.closing = way at hlater ⊢
  cases way with
  | unable | immediate => rfl
  | awaited =>
    have hwait : ¬ (v.event .waitClosed).Failed := hlater _ List.mem_cons_self
    rw [run_bind, run_perform]
    rw [World.event] at hwait
    rcases hanswer : (v.answer .waitClosed).1 with f | _
    · rw [hanswer] at hwait
      exact absurd trivial hwait
    · rfl

/-- What fails while a connection is closed is the wait. -/
theorem waitClosed_of_failed {w : World} {e : Event} (he : e ∈ close.trace w) (hfailed : e.Failed) :
    e.action = .waitClosed := by
  obtain ⟨later, htrace, hlater⟩ := trace_close w
  rw [htrace] at he
  rcases List.mem_cons.1 he with rfl | he
  · exact absurd hfailed id
  · rcases hlater e he with hwait | ⟨record, hlog⟩
    · exact hwait
    · have htransport := Event.isTransport_of_failed hfailed
      rw [hlog] at htransport
      cases htransport

variable {α : Type} {d : Dialogue α}

/-- A failure of a dialogue that is closed afterwards is one of the dialogue itself, which ends
there and is closed, or one of closing, which is the end. -/
theorem closing_failure (hd : d.FailStop) {w : World} {before after : List Event} {e : Event}
    {err : Error} (h : (closing d).trace w = before ++ e :: after)
    (he : e.failure? = some err) :
    (after = close.trace (d.run w).2 ∧ (d.run w).1 = .error err) ∨
      (after = [] ∧ e.action = .waitClosed ∧ (close.run (d.run w).2).1 = .error err) := by
  have hlast (front : List Event) (h : close.trace (d.run w).2 = front ++ e :: after) :
      after = [] ∧ e.action = .waitClosed ∧ (close.run (d.run w).2).1 = .error err := by
    obtain ⟨hafter, hresult⟩ := failStop_close.run h he
    have hmem : e ∈ close.trace (d.run w).2 := by simp [h]
    exact ⟨hafter, waitClosed_of_failed hmem (Event.failed_iff_failure?.2 ⟨err, he⟩), hresult⟩
  rw [trace_closing] at h
  rcases List.append_eq_append_iff.1 h with ⟨before', rfl, h'⟩ | ⟨after', hfirst, hafter⟩
  · exact .inr (hlast before' h')
  · rcases after' with - | ⟨e', after'⟩
    · exact .inr (hlast [] hafter.symm)
    · obtain ⟨rfl, rfl⟩ := List.cons.inj hafter
      obtain ⟨rfl, hresult⟩ := hd.run hfirst he
      exact .inl ⟨rfl, hresult⟩

end Client

/-! ### Calls -/

namespace Course

theorem failStop_encode (c : Course) : c.encode.FailStop := by
  apply failStop_of_asks
  apply c.asks_encode.mono
  rintro a rfl
  rfl

theorem failStop_delivering (lines : List String) (decode : Reply → Except Error Outcome) :
    (delivering lines decode).FailStop := by
  apply (Client.failStop_writeLines lines).bind
  intro _
  exact Client.failStop_readReply.bind fun _ => failStop_ofExcept _

/-- All calls but one stop at their first failure. -/
theorem failStop_sending {c : Course} (hc : c ≠ .pingAndClose) (lines : List String) :
    (c.sending lines).FailStop := by
  have hrequest (r : Request) : (Client.request r).FailStop :=
    FailStop.bind (failStop_ofExcept _) Client.failStop_exchange
  cases c with
  | order | update => exact failStop_delivering lines _
  | batch points finish =>
    apply (hrequest _).bind
    intro _
    apply (Client.failStop_writeLines lines).bind
    intro _
    apply (hrequest _).bind
    intro reply
    exact failStop_of_asks (asks_concluding (fun _ => rfl) finish lines.length reply)
  | leave => exact (Client.failStop_writeLines lines).map _
  | close => exact Client.failStop_close.map _
  | pingAndClose => exact absurd rfl hc

theorem failStop_ping : ping.FailStop := by
  apply FailStop.bind (failStop_ofExcept _)
  intro line
  exact (Client.failStop_exchange line).bind fun _ => failStop_ofExcept _

end Course

theorem Call.course_ne_pingAndClose {c : Call} (hc : c ≠ .pingAndClose) :
    c.course ≠ .pingAndClose := by
  cases c with
  | pingAndClose => exact absurd rfl hc
  | _ => exact fun h => by cases h

/-! ### Steps -/

/-- The result is the error that the fault of a failed action may end in; a dial to a port that
no message can name ends in the limit of numerals instead. -/
def Event.Decides {α : Type} (e : Event) (r : Except Error α) : Prop :=
  ∃ op f err, e.fault? = some (op, f) ∧ r = .error err ∧
    (e.Unspeakable → err = .numeral .tooLarge) ∧ (¬ e.Unspeakable → f.Becomes op err)

theorem Event.decides_of_failure? {α : Type} {e : Event} {err : Error}
    (h : e.failure? = some err) : e.Decides (.error err : Except Error α) := by
  obtain ⟨op, f, hfault, hbecomes⟩ := becomes_of_failure? h
  exact ⟨op, f, err, hfault, rfl, hbecomes⟩

/-- A failed action neither sends nor takes anything. -/
theorem Event.idle_of_failed {e : Event} (h : e.Failed) : e.sent = [] ∧ e.received = [] := by
  obtain ⟨a, answer⟩ := e
  cases a with
  | readLine | write _ | drain | waitClosed | dial _ =>
    cases answer with
    | error f => exact ⟨rfl, rfl⟩
    | ok _ => exact absurd h id
  | close | look | log _ => exact absurd h id

/-- Closing neither sends nor takes anything. -/
theorem Event.idle_of_quiet {e : Event} (h : e.action = .close ∨ e.action.IsQuiet) :
    e.sent = [] ∧ e.received = [] := by
  obtain ⟨a, answer⟩ := e
  obtain rfl | rfl | ⟨record, rfl⟩ : a = .close ∨ a = .waitClosed ∨ ∃ record, a = .log record := h
  all_goals exact ⟨rfl, rfl⟩

namespace Step

/-- All steps but the ping that closes its connection stop at their first failure. -/
theorem failStop_dialogue {step : Step} (hstep : step ≠ .call .pingAndClose) :
    step.dialogue.FailStop := by
  cases step with
  | call c =>
    have hc : c ≠ .pingAndClose := fun h => hstep (congrArg call h)
    rw [dialogue, Call.dialogue_phases]
    exact c.course.failStop_encode.bind
      (Course.failStop_sending (Call.course_ne_pingAndClose hc))
  | connect address => exact (Client.failStop_connect address).map _
  | connectTo text =>
    exact FailStop.map (FailStop.bind (failStop_ofExcept _) Client.failStop_connect) _

/-- How a step goes on from a failure: what was done before it, the failed action, and what is
done after it. -/
structure StopsAt (step : Step) (w : World) (before : List Event) (e : Event)
    (after : List Event) : Prop where
  /-- Nothing is read, written or dialed any more. -/
  quiet : ∀ later ∈ after, later.action = .close ∨ later.action.IsQuiet
  /-- Nothing at all is done any more by any step but the ping that closes its connection. -/
  last : step ≠ .call .pingAndClose → after = []
  /-- That one closes the connection, unless it was the closing that failed. -/
  closes : step = .call .pingAndClose → e.action ≠ .waitClosed →
    ∃ later, after = ⟨.close, w.closing⟩ :: later
  /-- The failure decides the result, -/
  decides : (∀ later ∈ after, ¬ later.Failed) → e.Decides (step.dialogue.run w).1
  /-- or else a failure of closing does in its place. -/
  replaces : ∀ later ∈ after, later.Failed →
    later.action = .waitClosed ∧ later.Decides (step.dialogue.run w).1
  /-- What was written without a failure before is what is sent, and nothing else. -/
  sent : (step.dialogue.run w).2.sent = w.sent ++ before.flatMap Event.sent
  /-- These are lines of the step's requests, each at most once and in order. -/
  lines : step.MaySend (before.flatMap Event.sent)
  /-- What was read before is taken off the coming bytes, and nothing else. -/
  received : w.incoming = before.flatMap Event.received ++ (step.dialogue.run w).2.incoming

variable {step : Step} {w : World} {before after : List Event} {e : Event}

/-- What a step does once something failed. -/
theorem quiet_after_failure {err : Error} (htrace : step.dialogue.trace w = before ++ e :: after)
    (he : e.failure? = some err) :
    (after = [] ∧ (step.dialogue.run w).1 = .error err ∧
        (step = .call .pingAndClose → e.action = .waitClosed)) ∨
      (step = .call .pingAndClose ∧ ∃ v, v.closing = w.closing ∧ after = Client.close.trace v ∧
        ((Client.close.run v).1 = .ok () → (step.dialogue.run w).1 = .error err) ∧
        ∀ err', (Client.close.run v).1 = .error err' → (step.dialogue.run w).1 = .error err') := by
  by_cases hstep : step = .call .pingAndClose
  · subst hstep
    have hdialogue : dialogue (.call .pingAndClose) = Client.closing Course.ping :=
      Call.dialogue_eq .pingAndClose
    rw [hdialogue] at htrace ⊢
    rw [Client.run_closing]
    obtain ⟨rfl, hresult⟩ | ⟨rfl, hwait, hresult⟩ :=
      Client.closing_failure Course.failStop_ping htrace he
    · refine .inr ⟨rfl, _, run_closing _ _, rfl, fun hclosed => ?_, fun err' hclosed => ?_⟩
      · simp only [hclosed, hresult]
      · simp only [hclosed]
    · exact .inl ⟨rfl, by simp only [hresult], fun _ => hwait⟩
  · obtain ⟨rfl, hresult⟩ := (failStop_dialogue hstep).run htrace he
    exact .inl ⟨rfl, hresult, fun h => absurd h hstep⟩

/-- From a failure on a step does nothing more on its connection, and the failure decides its
result; only the ping that closes its connection still does that, and if closing fails, then
this decides the result. -/
theorem stops_at_failure (step : Step) (w : World) (before after : List Event) (e : Event)
    (htrace : step.dialogue.trace w = before ++ e :: after) (hfailed : e.Failed) :
    step.StopsAt w before e after := by
  obtain ⟨err, he⟩ := Event.failed_iff_failure?.1 hfailed
  have hquiet : ∀ later ∈ after, later.action = .close ∨ later.action.IsQuiet := by
    obtain ⟨rfl, -⟩ | ⟨-, v, -, rfl, -⟩ := quiet_after_failure htrace he
    · exact fun _ h => absurd h List.not_mem_nil
    · obtain ⟨later, hclose, hlater⟩ := Client.trace_close v
      rw [hclose]
      exact List.forall_mem_cons.2 ⟨.inl rfl, fun e he => .inr (hlater e he)⟩
  have hidle : ∀ later ∈ e :: after, later.sent = [] ∧ later.received = [] :=
    List.forall_mem_cons.2
      ⟨Event.idle_of_failed hfailed, fun later h => Event.idle_of_quiet (hquiet later h)⟩
  have hsent : (step.dialogue.run w).2.sent = w.sent ++ before.flatMap Event.sent := by
    have hnone : (e :: after).flatMap Event.sent = [] :=
      List.flatMap_eq_nil_iff.2 fun later h => (hidle later h).1
    rw [run_sent, htrace, List.flatMap_append, hnone, List.append_nil]
  refine ⟨hquiet, ?last, ?closes, ?decides, ?replaces, hsent, ?lines, ?received⟩
  case last =>
    intro hstep
    obtain ⟨rfl, -⟩ | ⟨hping, -⟩ := quiet_after_failure htrace he
    · rfl
    · exact absurd hping hstep
  case closes =>
    intro hstep hwait
    obtain ⟨-, -, hclosing⟩ | ⟨-, v, hway, rfl, -⟩ := quiet_after_failure htrace he
    · exact absurd (hclosing hstep) hwait
    · obtain ⟨later, hclose, -⟩ := Client.trace_close v
      exact ⟨later, hway ▸ hclose⟩
  case decides =>
    intro hsound
    obtain ⟨-, hresult, -⟩ | ⟨-, v, -, rfl, hresult, -⟩ := quiet_after_failure htrace he
    · rw [hresult]
      exact Event.decides_of_failure? he
    · rw [hresult (Client.run_close_ok hsound)]
      exact Event.decides_of_failure? he
  case replaces =>
    intro later hlater hfails
    obtain ⟨err', herr⟩ := Event.failed_iff_failure?.1 hfails
    obtain ⟨rfl, -⟩ | ⟨-, v, -, rfl, -, hresult⟩ := quiet_after_failure htrace he
    · cases hlater
    · obtain ⟨front, back, hclose⟩ := List.append_of_mem hlater
      rw [hresult err' (Client.failStop_close.run hclose herr).2]
      exact ⟨Client.waitClosed_of_failed hlater hfails, Event.decides_of_failure? herr⟩
  case lines =>
    obtain ⟨lines, hlines, hall⟩ := step.sends w
    rwa [List.append_cancel_left (hsent.symm.trans hall)]
  case received =>
    have hnone : (e :: after).flatMap Event.received = [] :=
      List.flatMap_eq_nil_iff.2 fun later h => (hidle later h).2
    have hreceived := run_received step.dialogue w
    rwa [flatMap_traffic fun _ => Event.received_of_not_transport, htrace, List.flatMap_append,
      hnone, List.append_nil] at hreceived

/-- A ping for which reading fails, and then closing. -/
theorem stops_at_reset :
    let w : World :=
      { incoming := []
        clock := .fixed .null
        faults := [⟨.read, 1, .system "reset"⟩, ⟨.waitClosed, 1, .system "broken pipe"⟩] }
    let before : List Event := [⟨.log ⟨.debug, .exchange, "send 'PING\\n'"⟩, ()⟩,
      ⟨.write "PING\n", .ok ()⟩, ⟨.drain, .ok ()⟩]
    let e : Event := ⟨.readLine, .error (.system "reset")⟩
    let after : List Event := [⟨.close, .awaited⟩, ⟨.waitClosed, .error (.system "broken pipe")⟩]
    (call .pingAndClose).dialogue.trace w = before ++ e :: after ∧ e.Failed ∧
      (call .pingAndClose).StopsAt w before e after := by
  intro w before e after
  have htrace : (call .pingAndClose).dialogue.trace w = before ++ e :: after := by rfl
  exact ⟨htrace, trivial, stops_at_failure _ w before after e htrace trivial⟩

/-- A failure does not always become an error of the transport: the message for the refusal of
a dial names the port, and a port may be too long for that. -/
theorem not_always_translated :
    ¬ ∀ (step : Step) (w : World) (before after : List Event) (e : Event) (op : Operation)
        (t : String), step.dialogue.trace w = before ++ e :: after →
      (∀ earlier ∈ before, ¬ earlier.Failed) → e.fault? = some (op, .system t) →
      (∀ later ∈ after, ¬ later.Failed) →
      ∃ cause, (step.dialogue.run w).1 = .error (.transport cause) := by
  intro h
  obtain ⟨port, hport⟩ := Numeral.exists_overlong
  let a : Address := ⟨some "h", port, none⟩
  let w : World :=
    { incoming := [], clock := .fixed .null, faults := [⟨.dial, 1, .system "refused"⟩] }
  let e : Event := ⟨.dial a, .error (.system "refused")⟩
  obtain ⟨after, htrace⟩ : ∃ after, (connect a).dialogue.trace w = [] ++ e :: after := ⟨_, rfl⟩
  obtain ⟨rfl, hresult⟩ := (failStop_dialogue (by simp)).run htrace rfl
  obtain ⟨cause, hcause⟩ := h (connect a) w [] [] e .dial "refused" htrace (by simp) rfl (by simp)
  obtain ⟨-, -, herror⟩ | ⟨hnamed, -⟩ := a.refusal_cases "refused"
  · rw [hcause, herror] at hresult
    cases hresult
  · exact hnamed ⟨rfl, hport⟩

end Step

end RrdCache
