/-
RrdCache/Proofs/Client/Asks.lean

Which actions the parts of a client take.  Writing a line takes a record, the write and a
wait; reading a reply takes reads and records; the line of a point takes at most a look at
the clock.  Each lemma holds for every class of actions that contains those, so that the
same lemma serves for "does not read", "does not look" and "writes these lines only".
-/
import RrdCache.Client.Calls
import RrdCache.Proofs.Dialogue.Run

namespace RrdCache

open Dialogue

namespace Client

variable {p : Action → Prop}

theorem asks_writeLine {line : String} (hlog : ∀ r, p (.log r)) (hwrite : p (.write line))
    (hdrain : p .drain) : (writeLine line).Asks p := by
  apply Asks.bind ((asks_log _ _ _).2 (hlog _))
  intro _
  apply Asks.bind ((asks_perform _).2 hwrite)
  intro _
  apply Asks.bind (asks_attempt _ _)
  intro _
  exact Asks.bind ((asks_perform _).2 hdrain) fun _ => asks_attempt _ _

theorem asks_writeLines {lines : List String} (hlog : ∀ r, p (.log r))
    (hwrite : ∀ line ∈ lines, p (.write line)) (hdrain : p .drain) :
    (writeLines lines).Asks p := by
  induction lines with
  | nil => exact asks_done _
  | cons line lines ih =>
    obtain ⟨hline, hlines⟩ := List.forall_mem_cons.1 hwrite
    exact (asks_writeLine hlog hline hdrain).bind fun _ => ih hlines

theorem asks_readLine (hread : p .readLine) : readLine.Asks p := by
  apply Asks.bind ((asks_perform _).2 hread)
  intro _
  exact Asks.bind (asks_attempt _ _) fun _ => asks_ofExcept _

theorem asks_readLines (hread : p .readLine) (n : Nat) : (readLines n).Asks p := by
  induction n with
  | zero => exact asks_done _
  | succ n ih =>
    apply (asks_readLine hread).bind
    intro _
    exact ih.bind fun _ => asks_done _

theorem asks_readStatus (hread : p .readLine) (hlog : ∀ r, p (.log r)) :
    readStatus.Asks p := by
  apply (asks_readLine hread).andThen
  intro answer
  cases answer with
  | error e => exact asks_fail _
  | ok line =>
    apply Asks.bind (asks_ofExcept _)
    intro status
    cases status with
    | refused code message =>
      exact Asks.bind ((asks_log _ _ _).2 (hlog _)) fun _ => asks_fail _
    | accepted message pending =>
      exact Asks.bind ((asks_log _ _ _).2 (hlog _)) fun _ => asks_done _

theorem asks_readReply (hread : p .readLine) (hlog : ∀ r, p (.log r)) : readReply.Asks p := by
  apply (asks_readStatus hread hlog).bind
  intro _
  exact (asks_readLines hread _).bind fun _ => asks_done _

theorem asks_exchange {line : String} (hlog : ∀ r, p (.log r)) (hwrite : p (.write line))
    (hdrain : p .drain) (hread : p .readLine) : (exchange line).Asks p :=
  (asks_writeLine hlog hwrite hdrain).bind fun _ => asks_readReply hread hlog

theorem asks_close (hclose : p .close) (hwait : p .waitClosed) (hlog : ∀ r, p (.log r)) :
    close.Asks p := by
  apply Asks.bind ((asks_perform _).2 hclose)
  intro way
  cases way with
  | unable => exact asks_done _
  | immediate => exact (asks_log _ _ _).2 (hlog _)
  | awaited =>
    apply Asks.bind ((asks_perform _).2 hwait)
    intro _
    exact Asks.bind (asks_attempt _ _) fun _ => (asks_log _ _ _).2 (hlog _)

theorem asks_logConnected (a : Address) (hlog : ∀ r, p (.log r)) : (logConnected a).Asks p := by
  rw [logConnected]
  cases a.text with
  | ok text => exact (asks_log _ _ _).2 (hlog _)
  | error e => exact asks_done _

/-- Dialing comes first, and after it there are records only. -/
theorem connect_eq_ask (a : Address) (hlog : ∀ r, p (.log r)) :
    ∃ next, connect a = ask (.dial a) next ∧ ∀ answer, (next answer).Asks p := by
  refine ⟨_, rfl, ?_⟩
  rintro ((t | t) | _)
  · exact Asks.bind (asks_ofExcept _) fun _ => asks_fail _
  · exact asks_fail _
  · exact asks_logConnected a hlog

theorem asks_connect {a : Address} (hdial : p (.dial a)) (hlog : ∀ r, p (.log r)) :
    (connect a).Asks p := by
  obtain ⟨next, hconnect, hnext⟩ := connect_eq_ask a hlog
  rw [hconnect]
  exact ⟨hdial, hnext⟩

theorem asks_timeOf (point : Point) : (timeOf point).Asks (· = .look) := by
  rw [timeOf]
  cases point.timestamp with
  | some t => exact asks_done _
  | none => exact Asks.bind ((asks_perform _).2 rfl) fun _ => asks_ofExcept _

theorem asks_updateLine (point : Point) : (updateLine point).Asks (· = .look) :=
  (asks_timeOf point).bind fun _ => asks_ofExcept _

theorem asks_updateLines (points : List Point) : (updateLines points).Asks (· = .look) := by
  induction points with
  | nil => exact asks_done _
  | cons point points ih =>
    apply (asks_updateLine point).bind
    intro _
    exact ih.bind fun _ => asks_done _

end Client

end RrdCache
