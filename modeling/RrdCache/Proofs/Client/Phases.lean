/-
RrdCache/Proofs/Client/Phases.lean

The two phases of a call.  A call first writes down all its lines, for which it needs its
arguments and at most the clock (`Course.encode`); only then does it send them and read
replies (`Course.sending`).

Main result (`Call.dialogue_phases`): the dialogue of a call is the first phase and then the
second.  An error of the first phase is therefore all that happens.
-/
import RrdCache.Proofs.Client.Asks
import RrdCache.Proofs.Client.Course

namespace RrdCache

open Dialogue

namespace Course

/-- The lines that a call writes down.  The two lines around a batch are not among them:
they are always the same. -/
def encode : Course → Dialogue (List String)
  | order request _ => ([·]) <$> ofExcept request.line
  | update point => ([·]) <$> pointLine point
  | batch points _ => Client.updateLines points
  | leave => ([·]) <$> ofExcept Command.quit.line
  | close => pure []
  | pingAndClose => ([·]) <$> ofExcept (Request.command .ping).line

/-- Sends lines and reads one reply. -/
def delivering (lines : List String) (decode : Reply → Except Error Outcome) :
    Dialogue Outcome := do
  Client.writeLines lines
  let reply ← Client.readReply
  Dialogue.ofExcept (decode reply)

/-- The end of a batch of a number of updates, after the reply to its closing dot. -/
def concluding (finish : BatchOutcome → Except Error Outcome) (count : Nat) (reply : Reply) :
    Dialogue Outcome := do
  if !reply.outcome.isOk then
    Dialogue.log .warning .batch (reply.outcome.summary count)
  Dialogue.ofExcept (finish reply.outcome)

/-- What a call does with the lines that it wrote down. -/
def sending : Course → List String → Dialogue Outcome
  | order _ decode, lines => delivering lines decode
  | update _, lines => delivering lines Reply.nothing
  | batch _ finish, lines => do
    let _ ← Client.request (.command .batch)
    Client.writeLines lines
    let reply ← Client.request (.command .batchEnd)
    concluding finish lines.length reply
  | leave, lines => (Client.writeLines lines).silent
  | close, _ => Client.close.silent
  | pingAndClose, lines => Client.closing (delivering lines (Reply.expected "PONG"))

theorem writeLines_singleton (line : String) :
    Client.writeLines [line] = Client.writeLine line := by
  rw [Client.writeLines, Client.writeLines]
  exact bind_pure _

/-- Sending one line and reading its reply is an exchange. -/
theorem delivering_singleton (line : String) (decode : Reply → Except Error Outcome) :
    delivering [line] decode = Client.exchange line >>= fun reply => ofExcept (decode reply) := by
  rw [delivering, writeLines_singleton, Client.exchange, bind_assoc]

theorem exchanging_eq (encode : Dialogue String) (decode : Reply → Except Error Outcome) :
    exchanging encode decode
      = (([·]) <$> encode) >>= fun lines => delivering lines decode := by
  rw [bind_map_left, exchanging]
  congr 1
  funext line
  rw [delivering_singleton]

theorem concluding_eq (finish : BatchOutcome → Except Error Outcome) (count : Nat)
    (reply : Reply) :
    (do
      if !reply.outcome.isOk then
        Dialogue.log .warning .batch (reply.outcome.summary count)
      pure reply.outcome) >>= (fun outcome => Dialogue.ofExcept (finish outcome))
        = concluding finish count reply := by
  rw [concluding]
  split <;> rfl

/-- The dialogue of a course writes lines down and sends them. -/
theorem dialogue_eq (c : Course) : c.dialogue = c.encode >>= c.sending := by
  cases c with
  | order request decode => exact exchanging_eq _ _
  | update point => exact exchanging_eq _ _
  | batch points finish =>
    -- all lines of a batch are written down before its first exchange
    rw [dialogue, Client.batchOutcome, bind_assoc, encode]
    congr 1
    funext lines
    simp only [sending, bind_assoc, ← concluding_eq]
    rfl
  | leave =>
    rw [dialogue, silent, Client.quit, map_bind, encode, bind_map_left]
    congr 1
    funext line
    rw [sending, writeLines_singleton, silent]
  | close => rfl
  | pingAndClose =>
    rw [dialogue, ping, exchanging_eq]
    rfl

end Course

theorem Call.dialogue_phases (c : Call) : c.dialogue = c.course.encode >>= c.course.sending := by
  rw [Call.dialogue_eq, Course.dialogue_eq]

namespace Course

/-! ### What the phases ask -/

theorem asks_pointLine (point : Except Error Point) : (pointLine point).Asks (· = .look) :=
  Asks.bind (asks_ofExcept _) fun point => Client.asks_updateLine point

/-- Writing lines down takes at most the clock. -/
theorem asks_encode (c : Course) : c.encode.Asks (· = .look) := by
  cases c with
  | order | leave | pingAndClose => exact Asks.map _ (asks_ofExcept _)
  | update point => exact Asks.map _ (asks_pointLine point)
  | batch points _ => exact Client.asks_updateLines points
  | close => exact asks_done _

theorem asks_delivering {p : Action → Prop} {lines : List String} (hlog : ∀ r, p (.log r))
    (hwrite : ∀ line ∈ lines, p (.write line)) (hdrain : p .drain) (hread : p .readLine)
    (decode : Reply → Except Error Outcome) : (delivering lines decode).Asks p := by
  apply (Client.asks_writeLines hlog hwrite hdrain).bind
  intro _
  exact (Client.asks_readReply hread hlog).bind fun _ => asks_ofExcept _

theorem asks_concluding {p : Action → Prop} (hlog : ∀ r, p (.log r))
    (finish : BatchOutcome → Except Error Outcome) (count : Nat) (reply : Reply) :
    (concluding finish count reply).Asks p := by
  rw [concluding]
  split
  · exact Asks.bind ((asks_log _ _ _).2 (hlog _)) fun _ => asks_ofExcept _
  · exact asks_ofExcept _

/-- Sending may take every action but looking at the clock and dialing. -/
theorem asks_sending (c : Course) (lines : List String) :
    (c.sending lines).Asks fun a => a ≠ .look ∧ ∀ address, a ≠ .dial address := by
  have hdelivering : ∀ decode, (delivering lines decode).Asks
      fun a => a ≠ .look ∧ ∀ address, a ≠ .dial address :=
    asks_delivering (by simp) (by simp) (by simp) (by simp)
  cases c with
  | order | update => exact hdelivering _
  | batch points finish =>
    have hrequest : ∀ r : Request, (Client.request r).Asks
        fun a => a ≠ .look ∧ ∀ address, a ≠ .dial address := fun r =>
      Asks.bind (asks_ofExcept _) fun line =>
        Client.asks_exchange (by simp) (by simp) (by simp) (by simp)
    apply (hrequest _).bind
    intro _
    apply (Client.asks_writeLines (by simp) (by simp) (by simp)).bind
    intro _
    exact (hrequest _).bind fun reply => asks_concluding (by simp) _ _ _
  | leave => exact Asks.map _ (Client.asks_writeLines (by simp) (by simp) (by simp))
  | close => exact Asks.map _ (Client.asks_close (by simp) (by simp) (by simp))
  | pingAndClose =>
    apply (hdelivering _).andThen
    intro result
    exact (Client.asks_close (by simp) (by simp) (by simp)).bind fun _ => asks_ofExcept _

end Course

end RrdCache
