/-
RrdCache/Proofs/Client/Errors.lean

How exchanges fail.  Once its lines are written down, a call ends with errors of the exchange
only, and its records stay on one line: the messages of status lines have no line breaks, all
else that a daemon sends is shown between quotation marks, and what remains are the texts of
faults.

Main results: `Course.exchanges_sending` for calls, and `Client.exchanges_connect` and
`Client.exchanges_close` for connections.
-/
import RrdCache.Proofs.Escape.Call
import RrdCache.Proofs.Reply.Errors

namespace RrdCache

open Dialogue
open Error (OfExchange Tame)

variable {T : String → Prop} {α β : Type}

/-- In surroundings whose faults tell texts of a class, a dialogue ends with errors of the
exchange only or with a value of a class, and it keeps tame records only. -/
abbrev Dialogue.Exchanges (T : String → Prop) (gives : α → Prop) (d : Dialogue α) : Prop :=
  d.Ensures (Event.TellsFault T) (Action.IsTame T) (OfExchange T) gives

theorem endsIn_of_failsWith {p : Error → Prop} {r : Except Error α} (h : FailsWith p r) :
    EndsIn p (fun _ => True) r := by
  cases r with
  | error e => exact h e rfl
  | ok a => trivial

/-- The errors of an exchange, whatever the surroundings tell. -/
theorem Dialogue.Exchanges.raises {gives : α → Prop} {d : Dialogue α}
    (hd : d.Exchanges (fun _ => True) gives) : d.Raises (OfExchange fun _ => True) := by
  apply hd.toRaises
  rintro ⟨a, answer⟩
  cases a with
  | readLine | write _ | drain | waitClosed | dial _ => cases answer <;> trivial
  | close | look | log _ => trivial

/-- Errors of the exchange are none of a request. -/
theorem Dialogue.Exchanges.raises_late {gives : α → Prop} {d : Dialogue α}
    (hd : d.Exchanges (fun _ => True) gives) : d.Raises Error.IsLate :=
  hd.raises.mono fun _ he => he.late

/-! ### Status lines -/

namespace Status

/-- The message of a status line. -/
def said : Status → String
  | accepted message _ => message
  | refused _ message => message

/-- The message of a status line has no line breaks. -/
theorem isText_of_split? {line number message : List Char}
    (h : split? line = some (number, message)) : Shape.IsText message := by
  simp only [split?, Option.bind_eq_bind, Option.bind_eq_some_iff] at h
  obtain ⟨⟨_, _⟩, -, rest, -, text, htext, hpair⟩ := h
  obtain ⟨-, rfl⟩ := Prod.mk.inj (Option.some.inj hpair)
  exact (Shape.text?_eq_some_iff.1 htext).2

theorem oneLine_said {line : String} {s : Status} (h : ofLine line = .ok s) :
    OneLine s.said := by
  rw [ofLine] at h
  split at h
  · cases h
  · rename_i number message hsplit
    obtain ⟨code, -, h⟩ := Result.bind_eq_ok.1 h
    have hmessage : OneLine (String.ofList message) := .ofList (isText_of_split? hsplit)
    obtain rfl := Except.ok.inj h
    rw [ofCode]
    split <;> exact hmessage

end Status

namespace Client

/-! ### Reading -/

theorem exchange_lineOfBytes (bytes : List UInt8) :
    FailsWith (OfExchange T) (lineOfBytes bytes) := by
  refine failsWith_ite (failsWith_error ⟨.of_bare_nil rfl rfl, rfl⟩) ?_
  split
  · exact failsWith_ok _
  · exact failsWith_error ⟨.of_bare_nil rfl rfl, rfl⟩

theorem exchanges_readLine : readLine.Exchanges T fun _ => True := by
  apply Ensures.bind (.perform trivial)
  intro answer hanswer
  apply Ensures.bind (.attempt ?_)
  · exact fun bytes _ => .ofExcept (endsIn_of_failsWith (exchange_lineOfBytes bytes))
  · rintro f rfl
    exact ⟨⟨rfl, List.forall_mem_singleton.2 (staysIn_of_mem hanswer)⟩, rfl⟩

theorem exchanges_readLines (n : Nat) : (readLines n).Exchanges T fun _ => True := by
  induction n with
  | zero => exact Ensures.pure trivial
  | succ n ih =>
    apply exchanges_readLine.bind
    intro _ _
    exact ih.bind fun _ _ => Ensures.pure trivial

/-- In place of a status line, errors of the exchange stay such. -/
theorem exchange_asStatusError {e : Error} (h : e.OfExchange T) :
    (asStatusError e).OfExchange T := by
  unfold asStatusError
  split
  · exact ⟨.of_bare_nil rfl rfl, rfl⟩
  · exact h

theorem exchanges_readStatus : readStatus.Exchanges T fun r => OneLine r.1 := by
  apply exchanges_readLine.andThen
  rintro (e | line) hr
  · exact Ensures.fail (exchange_asStatusError hr)
  · have hstatus : EndsIn (OfExchange T) (fun s => OneLine s.said) (Status.ofLine line) := by
      rcases h : Status.ofLine line with e | s
      · exact Status.exchange_ofLine line e h
      · exact Status.oneLine_said h
    apply Ensures.bind (.ofExcept hstatus)
    rintro (⟨message, pending⟩ | ⟨code, message⟩) (hmessage : OneLine message)
    · refine Ensures.bind (.log (OneLine.staysIn ?_)) fun _ _ => Ensures.pure hmessage
      refine OneLine.before ?_ (by decide)
      exact (hmessage.after (by decide)).joined (by decide) (oneLine_spelling pending)
    · have herror : (Error.refused code message).OfExchange T :=
        ⟨⟨rfl, List.forall_mem_singleton.2 hmessage.staysIn⟩, rfl⟩
      refine Ensures.bind (.log (OneLine.staysIn ?_)) fun _ _ => Ensures.fail herror
      exact ((oneLine_spelling code).after (by decide)).joined (by decide) hmessage

theorem exchanges_readReply : readReply.Exchanges T fun reply => OneLine reply.message := by
  apply exchanges_readStatus.bind
  intro status hstatus
  exact (exchanges_readLines _).bind fun _ _ => Ensures.pure hstatus

/-! ### Writing, closing, connecting -/

theorem exchange_toError {cause : String → TransportError} {f : Fault} (hf : T f.text)
    (hcause : ∀ t, (Error.transport (cause t)).bare = [t]) :
    (f.toError cause).OfExchange T := by
  cases f with
  | system t =>
    refine ⟨⟨rfl, ?_⟩, rfl⟩
    rw [Fault.toError, hcause]
    exact List.forall_mem_singleton.2 (staysIn_of_mem hf)
  | limit t => exact ⟨⟨rfl, List.forall_mem_singleton.2 (staysIn_of_mem hf)⟩, rfl⟩

theorem exchanges_writeLine (line : String) : (writeLine line).Exchanges T fun _ => True := by
  have hattempt {answer : Except Fault Unit} (h : ∀ f, answer = .error f → T f.text) :
      (attempt answer (Fault.toError .write)).Exchanges T fun _ => True :=
    .attempt fun f hf => exchange_toError (h f hf) fun _ => rfl
  apply Ensures.bind (.log ?_)
  · intro _ _
    apply Ensures.bind (.perform trivial)
    intro written hwritten
    apply (hattempt (by rintro f rfl; exact hwritten)).bind
    intro _ _
    apply Ensures.bind (.perform trivial)
    intro drained hdrained
    exact hattempt (by rintro f rfl; exact hdrained)
  · exact OneLine.staysIn ((oneLine_quoted line).after (by decide))

theorem exchanges_writeLines (lines : List String) :
    (writeLines lines).Exchanges T fun _ => True := by
  induction lines with
  | nil => exact Ensures.pure trivial
  | cons line lines ih => exact (exchanges_writeLine line).bind fun _ _ => ih

theorem exchanges_exchange (line : String) :
    (exchange line).Exchanges T fun reply => OneLine reply.message :=
  (exchanges_writeLine line).bind fun _ _ => exchanges_readReply

theorem exchanges_close : close.Exchanges T fun _ => True := by
  have hlog : logClosed.Exchanges T fun _ => True := .log (OneLine.staysIn (.ofList (by decide)))
  apply Ensures.bind (.perform trivial)
  rintro (_ | _ | _) -
  · exact Ensures.pure trivial
  · exact hlog
  · apply Ensures.bind (.perform trivial)
    intro answer hanswer
    apply Ensures.bind (.attempt ?_)
    · exact fun _ _ => hlog
    · rintro f rfl
      exact exchange_toError hanswer fun _ => rfl

theorem exchange_ofHost (all : String) (host port : List Char) :
    FailsWith (OfExchange T) (Address.ofHost all host port) := by
  rw [Address.ofHost]
  refine failsWith_ite (failsWith_error ⟨.of_bare_nil rfl rfl, rfl⟩)
    (failsWith_ite (failsWith_ok _) ?_)
  refine failsWith_ite (failsWith_error ⟨.of_bare_nil rfl rfl, rfl⟩) ?_
  exact (exchange_liftNumeral (NumeralError.isExpected_whole _)).bind fun _ =>
    failsWith_ite (failsWith_ok _) (failsWith_error ⟨.of_bare_nil rfl rfl, rfl⟩)

/-- A text that is no address is not an unfit request, and it is shown between quotation
marks. -/
theorem exchange_ofText (s : String) : FailsWith (OfExchange T) (Address.ofText s) := by
  have hbracketed (all : String) (t : List Char) :
      FailsWith (OfExchange T) (Address.ofBracketed all t) := by
    rw [Address.ofBracketed]
    split
    · exact failsWith_error ⟨.of_bare_nil rfl rfl, rfl⟩
    · exact exchange_ofHost _ _ _
    · exact exchange_ofHost _ _ _
    · exact failsWith_error ⟨.of_bare_nil rfl rfl, rfl⟩
  have hplain (all : String) (t : List Char) :
      FailsWith (OfExchange T) (Address.ofPlain all t) := by
    rw [Address.ofPlain]
    exact failsWith_ite (exchange_ofHost _ _ _) (exchange_ofHost _ _ _)
  rw [Address.ofText]
  unfold Address.ofTrimmed
  refine failsWith_ite (failsWith_error ⟨.of_bare_nil rfl rfl, rfl⟩) (failsWith_ite ?_ ?_)
  · exact failsWith_ite (failsWith_error ⟨.of_bare_nil rfl rfl, rfl⟩) (failsWith_ok _)
  · split
    · exact failsWith_ok _
    · exact hbracketed _ _
    · exact hplain _ _

theorem exchanges_logConnected {a : Address} (ha : ∀ t, a.text = .ok t → StaysIn T t) :
    (logConnected a).Exchanges T fun _ => True := by
  rw [logConnected]
  split
  · exact .log ((OneLine.staysIn (.ofList (by decide))).append (ha _ ‹_›))
  · exact .pure trivial

/-- A connection that cannot be opened is an error which shows the address. -/
theorem exchanges_connect {a : Address} (ha : ∀ t, a.text = .ok t → StaysIn T t) :
    (connect a).Exchanges T fun _ => True := by
  have htext : EndsIn (OfExchange T) (StaysIn T) a.text := by
    rcases h : a.text with e | t
    · have hport : FailsWith (OfExchange T) a.text := by
        rw [Address.text]
        split
        · exact failsWith_ok _
        · exact (exchange_liftNumeral (NumeralError.isExpected_text _)).bind fun _ =>
            failsWith_ok _
      exact hport e h
    · exact ha t h
  apply Ensures.bind (.perform trivial)
  rintro ((t | t) | _) hanswer
  · have hanswer : T t := hanswer
    refine Ensures.bind (.ofExcept htext) fun text hshown => Ensures.fail ⟨⟨rfl, ?_⟩, rfl⟩
    exact List.forall_mem_cons.2 ⟨hshown, List.forall_mem_singleton.2 (staysIn_of_mem hanswer)⟩
  · exact Ensures.fail ⟨⟨rfl, List.forall_mem_singleton.2 (staysIn_of_mem hanswer)⟩, rfl⟩
  · exact exchanges_logConnected ha

/-- Closing keeps the value of a dialogue, and its own error is one of the exchange. -/
theorem exchanges_closing {gives : α → Prop} {d : Dialogue α} (hd : d.Exchanges T gives) :
    (closing d).Exchanges T gives := by
  apply hd.andThen
  intro r hr
  exact exchanges_close.bind fun _ _ => .ofExcept hr

end Client

/-! ### Calls -/

/-- A reply can only be refused by a call for what it says. -/
theorem Call.exchange_decode (c : Call) {r : Reply} (hr : OneLine r.message) :
    FailsWith (OfExchange T) (c.course.decode r) := by
  cases c with
  | stats => exact (failsWith_mapM Statistic.exchange_ofLine).map _
  | queue => exact (failsWith_mapM QueueEntry.exchange_ofLine).map _
  | fetch query => exact (Table.exchange_ofLines _).map _
  | first _ _ | last _ =>
    exact (exchange_readUnsigned ⟨.of_bare_nil rfl rfl, rfl⟩ _).map _
  | ping | create _ | pingAndClose => exact Reply.exchange_expected _ _
  | batch points =>
    refine FailsWith.map (failsWith_ite (failsWith_ok ()) (failsWith_error ?_)) _
    exact ⟨⟨rfl, List.forall_mem_singleton.2 hr.staysIn⟩, rfl⟩
  | _ => exact failsWith_ok _

namespace Course

theorem exchanges_delivering (lines : List String) {decode : Reply → Except Error Outcome}
    (hdecode : ∀ r, OneLine r.message → FailsWith (OfExchange T) (decode r)) :
    (delivering lines decode).Exchanges T fun _ => True := by
  apply (Client.exchanges_writeLines lines).bind
  intro _ _
  exact Client.exchanges_readReply.bind fun r hr =>
    .ofExcept (endsIn_of_failsWith (hdecode r hr))

theorem exchanges_concluding {finish : BatchOutcome → Except Error Outcome} (count : Nat)
    {reply : Reply} (hreply : OneLine reply.message)
    (hfinish : FailsWith (OfExchange T) (finish reply.outcome)) :
    (concluding finish count reply).Exchanges T fun _ => True := by
  have hend : (ofExcept (finish reply.outcome)).Exchanges T fun _ => True :=
    .ofExcept (endsIn_of_failsWith hfinish)
  have hsummary : OneLine (reply.outcome.summary count) := by
    have herrors := oneLine_spelling reply.outcome.errors.length
    refine OneLine.before (OneLine.joined ?_ (by decide) hreply) (by decide)
    exact ((oneLine_spelling count).after (by decide)).joined (by decide) herrors
  rw [concluding]
  split
  · exact Ensures.bind (.log hsummary.staysIn) fun _ _ => hend
  · exact hend

/-- After its lines are written down, a call ends with errors of the exchange only. -/
theorem exchanges_sending (c : Course) (lines : List String)
    (hdecode : ∀ r, OneLine r.message → FailsWith (OfExchange T) (c.decode r)) :
    (c.sending lines).Exchanges T fun _ => True := by
  cases c with
  | order request decode => exact exchanges_delivering lines hdecode
  | update point => exact exchanges_delivering lines hdecode
  | batch points finish =>
    apply (Client.exchanges_exchange _).bind
    intro _ _
    apply (Client.exchanges_writeLines lines).bind
    intro _ _
    exact (Client.exchanges_exchange _).bind fun reply hreply =>
      exchanges_concluding _ hreply (hdecode reply hreply)
  | leave => exact (Client.exchanges_writeLines lines).map fun _ _ => trivial
  | close => exact Client.exchanges_close.map fun _ _ => trivial
  | pingAndClose => exact Client.exchanges_closing (exchanges_delivering lines hdecode)

end Course

end RrdCache
