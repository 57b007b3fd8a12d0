/-
RrdCache/Proofs/Dialogue/FailStop.lean

Dialogues that stop at a failure.  `FailStop d` says of a dialogue that it ends at the first
action that fails, with the error which that failure means; it is said along the tree, so that
it holds of parts and of what is put together from them (`FailStop.bind`).

Main results: in any surroundings a failed action of such a dialogue is its last action, and
decides its result (`FailStop.run`).  What a failure means is told by `Event.failure?`, and
`Fault.Becomes` says the same without the code: a failure of the system and every failure of
reading become an error of the transport that tells their text, and any other fault stays
what it is (`Event.becomes_of_failure?`).
-/
import RrdCache.Proofs.Dialogue.Traffic
import RrdCache.Proofs.Number.Spelling

namespace RrdCache

/-! ### Failures -/

/-- What the refusal of a dial means; the error names the address, if the address has a text. -/
def Address.refusal (a : Address) (t : String) : Error :=
  match a.text with
  | .ok text => .transport (.connect text t)
  | .error e => e

namespace Event

/-- The operation that failed in an event, and its fault. -/
def fault? : Event → Option (Operation × Fault)
  | ⟨.readLine, .error f⟩ => some (.read, f)
  | ⟨.write _, .error f⟩ => some (.write, f)
  | ⟨.drain, .error f⟩ => some (.drain, f)
  | ⟨.waitClosed, .error f⟩ => some (.waitClosed, f)
  | ⟨.dial _, .error f⟩ => some (.dial, f)
  | _ => none

/-- The error that a failed action means. -/
def failure? : Event → Option Error
  | ⟨.readLine, .error f⟩ => some (.transport (.read f.text))
  | ⟨.write _, .error f⟩ | ⟨.drain, .error f⟩ => some (f.toError .write)
  | ⟨.waitClosed, .error f⟩ => some (f.toError .close)
  | ⟨.dial a, .error (.system t)⟩ => some (a.refusal t)
  | ⟨.dial _, .error (.limit t)⟩ => some (.fault (.limit t))
  | _ => none

/-- A dial that the system refused, to an address with a port of so many digits that no message
can name it. -/
def Unspeakable : Event → Prop
  | ⟨.dial a, .error (.system _)⟩ => a.unixPath = none ∧ Numeral.Overlong a.port
  | _ => False

theorem failed_iff_failure? {e : Event} : e.Failed ↔ ∃ err, e.failure? = some err := by
  obtain ⟨a, answer⟩ := e
  cases a with
  | readLine | write _ | drain | waitClosed => cases answer <;> simp [Failed, failure?]
  | dial a => rcases answer with (t | t) | _ <;> simp [Failed, failure?]
  | close | look | log _ => simp [Failed, failure?]

/-- Only what is done to a connection can fail. -/
theorem failure?_of_not_transport {e : Event} (h : e.action.isTransport = false) :
    e.failure? = none := by
  obtain ⟨a, answer⟩ := e
  cases a with
  | look | log _ => rfl
  | readLine | write _ | drain | close | waitClosed | dial _ => cases h

end Event

/-- What a fault of an operation may end in.  A failure of the system ends in an error of the
transport, a fault of reading does so in any case, and the message of the error tells the
fault's text last; the limits of the other operations are passed on. -/
inductive Fault.Becomes : Operation → Fault → Error → Prop
  | system (op : Operation) (t front : String) (cause : TransportError)
    (told : cause.message = front ++ t) : Becomes op (.system t) (.transport cause)
  | read (f : Fault) (front : String) (cause : TransportError)
    (told : cause.message = front ++ f.text) : Becomes .read f (.transport cause)
  | passed (op : Operation) (t : String) (other : op ≠ .read) :
    Becomes op (.limit t) (.fault (.limit t))

theorem Fault.becomes_toError {op : Operation} (hop : op ≠ .read) (f : Fault)
    {cause : String → TransportError} (front : String)
    (hcause : ∀ t, (cause t).message = front ++ t) : f.Becomes op (f.toError cause) := by
  cases f with
  | system t => exact .system op t front (cause t) (hcause t)
  | limit t => exact .passed op t hop

/-- The refusal of a dial is an error of the transport, unless no message can name the port. -/
theorem Address.refusal_cases (a : Address) (t : String) :
    (a.unixPath = none ∧ Numeral.Overlong a.port ∧ a.refusal t = .numeral .tooLarge) ∨
      (¬ (a.unixPath = none ∧ Numeral.Overlong a.port) ∧
        ∃ text, a.text = .ok text ∧ a.refusal t = .transport (.connect text t)) := by
  have hsound (text : String) (htext : a.text = .ok text) :
      a.refusal t = .transport (.connect text t) := by rw [refusal, htext]
  rcases hpath : a.unixPath with - | path
  · by_cases hport : Numeral.Overlong a.port
    · refine .inl ⟨rfl, hport, ?_⟩
      rw [refusal, Address.text, hpath, Numeral.text_of_overlong hport]
      rfl
    · refine .inr ⟨fun h => hport h.2, hostText a.host (Numeral.spelling a.port), ?_⟩
      have htext : a.text = .ok (hostText a.host (Numeral.spelling a.port)) := by
        rw [Address.text, hpath, Numeral.text_of_not_overlong hport]
        rfl
      exact ⟨htext, hsound _ htext⟩
  · have htext : a.text = .ok ("unix:" ++ path) := by rw [Address.text, hpath]
    exact .inr ⟨fun h => Option.some_ne_none _ h.1, _, htext, hsound _ htext⟩

/-- What a failed action means is what its fault may end in, but for a dial to a port that no
message can name. -/
theorem Event.becomes_of_failure? {e : Event} {err : Error} (h : e.failure? = some err) :
    ∃ op f, e.fault? = some (op, f) ∧ (e.Unspeakable → err = .numeral .tooLarge) ∧
      (¬ e.Unspeakable → f.Becomes op err) := by
  obtain ⟨a, answer⟩ := e
  cases a with
  | readLine =>
    rcases answer with f | _
    · obtain rfl := Option.some.inj h
      exact ⟨.read, f, rfl, False.elim, fun _ => .read f "read failed: " _ rfl⟩
    · cases h
  | write _ =>
    rcases answer with f | _
    · obtain rfl := Option.some.inj h
      exact ⟨.write, f, rfl, False.elim, fun _ =>
        Fault.becomes_toError (by decide) f "write failed: " fun _ => rfl⟩
    · cases h
  | drain =>
    rcases answer with f | _
    · obtain rfl := Option.some.inj h
      exact ⟨.drain, f, rfl, False.elim, fun _ =>
        Fault.becomes_toError (by decide) f "write failed: " fun _ => rfl⟩
    · cases h
  | waitClosed =>
    rcases answer with f | _
    · obtain rfl := Option.some.inj h
      exact ⟨.waitClosed, f, rfl, False.elim, fun _ =>
        Fault.becomes_toError (by decide) f "close failed: " fun _ => rfl⟩
    · cases h
  | dial a =>
    rcases answer with (t | t) | _
    · obtain rfl := Option.some.inj h
      refine ⟨.dial, .system t, rfl, ?_⟩
      obtain ⟨hpath, hport, herror⟩ | ⟨hport, text, -, herror⟩ := a.refusal_cases t
      · exact ⟨fun _ => herror, fun hnot => absurd ⟨hpath, hport⟩ hnot⟩
      · rw [herror]
        exact ⟨fun hspeechless => absurd hspeechless hport, fun _ =>
          .system .dial t ("unable to connect to " ++ text ++ ": ") _ rfl⟩
    · obtain rfl := Option.some.inj h
      exact ⟨.dial, .limit t, rfl, False.elim, fun _ => .passed .dial t (by decide)⟩
    · cases h
  | close | look | log _ => cases h

/-! ### Dialogues that stop -/

namespace Dialogue

variable {α β : Type}

/-- A dialogue ends at the first action that fails, with the error that the failure means. -/
def FailStop : Dialogue α → Prop
  | done _ => True
  | ask a next =>
    (∀ answer err, Event.failure? ⟨a, answer⟩ = some err → next answer = done (.error err)) ∧
      ∀ answer, (next answer).FailStop

/-- In any surroundings a failed action is the last one, and its error is the result. -/
theorem FailStop.run {d : Dialogue α} (hd : d.FailStop) {w : World} {before after : List Event}
    {e : Event} {err : Error} (h : d.trace w = before ++ e :: after)
    (he : e.failure? = some err) : after = [] ∧ (d.run w).1 = .error err := by
  induction d generalizing w before with
  | done r => exact absurd h (by simp)
  | ask a next ih =>
    rw [trace] at h
    rcases before with - | ⟨first, before⟩
    · obtain ⟨hfirst, hafter⟩ := List.cons.inj h
      rw [← hfirst] at he
      have hnext : next (w.answer a).1 = done (.error err) := hd.1 _ _ he
      rw [hnext] at hafter
      rw [Dialogue.run, hnext]
      exact ⟨hafter.symm, rfl⟩
    · exact ih _ (hd.2 _) (List.cons.inj h).2

theorem failStop_ofExcept (r : Except Error α) : (ofExcept r).FailStop := trivial

theorem failStop_pure (a : α) : (pure a : Dialogue α).FailStop := trivial

theorem failStop_fail (e : Error) : (fail e : Dialogue α).FailStop := trivial

/-- Without actions on a connection nothing can fail. -/
theorem failStop_of_asks {d : Dialogue α} (hd : d.Asks (·.isTransport = false)) :
    d.FailStop := by
  induction d with
  | done r => trivial
  | ask a next ih =>
    refine ⟨fun answer err h => ?_, fun answer => ih answer (hd.2 answer)⟩
    rw [Event.failure?_of_not_transport hd.1] at h
    cases h

/-- A dialogue that goes on after errors stops as well, if it passes the errors of failures
on as they are. -/
theorem FailStop.andThen {d : Dialogue α} {f : Except Error α → Dialogue β} (hd : d.FailStop)
    (hpass : ∀ e err, Event.failure? e = some err → f (.error err) = done (.error err))
    (hf : ∀ r, (f r).FailStop) : (d.andThen f).FailStop := by
  induction d with
  | done r => exact hf r
  | ask a next ih =>
    refine ⟨fun answer err h => ?_, fun answer => ih answer (hd.2 answer)⟩
    show (next answer).andThen f = done (.error err)
    rw [hd.1 answer err h]
    exact hpass _ err h

theorem FailStop.bind {d : Dialogue α} {f : α → Dialogue β} (hd : d.FailStop)
    (hf : ∀ a, (f a).FailStop) : (d >>= f).FailStop :=
  hd.andThen (fun _ _ _ => rfl) fun
    | .ok a => hf a
    | .error _ => trivial

theorem FailStop.map {d : Dialogue α} (hd : d.FailStop) (g : α → β) : (g <$> d).FailStop := by
  rw [map_eq_pure_bind]
  exact hd.bind fun a => failStop_pure (g a)

/-- An action and what follows it stop, if each failure of the action does. -/
theorem failStop_perform_bind {a : Action} {f : a.Answer → Dialogue β}
    (hfails : ∀ answer err, Event.failure? ⟨a, answer⟩ = some err →
      f answer = done (.error err))
    (hf : ∀ answer, (f answer).FailStop) : (perform a >>= f).FailStop :=
  ⟨hfails, hf⟩

end Dialogue

end RrdCache
