/-
RrdCache/Proofs/Escape/Wire.lean

What escapes while a connection is used.  Surroundings are ordinary if writing and closing
fail with errors of the system only, and a clock without a reading says so; every run leaves
them ordinary.  In ordinary surroundings writing and closing never escape.  Reading never
escapes but for one thing, the number of a status line: the lines of a reply that come after
it are taken as they are.
-/
import RrdCache.Client.Connection
import RrdCache.Client.Updates
import RrdCache.Proofs.Dialogue.Frame
import RrdCache.Proofs.Dialogue.Trace
import RrdCache.Proofs.Escape.Reply

namespace RrdCache

open Dialogue

/-! ### Ordinary surroundings -/

/-- Every reading that a clock is going to give is a value, or a missing time. -/
def Clock.IsOrdinary (c : Clock) : Prop :=
  ∀ r ∈ c.next :: c.later, ∀ e, r = .error e → ∃ cause, e = .clock cause

/-- Surroundings that fail in ordinary ways only.  Reading may fail in any way. -/
structure World.Ordinary (w : World) : Prop where
  faults : ∀ p ∈ w.faults, p.operation ≠ .read → ∃ text, p.fault = .system text
  clock : w.clock.IsOrdinary

namespace World.Ordinary

variable {w : World}

/-- What an action leaves behind is ordinary again. -/
theorem answer (hw : w.Ordinary) (a : Action) : (w.answer a).2.Ordinary where
  faults := by
    rw [answer_faults]
    exact hw.faults
  clock r hr := hw.clock r (w.answer_readings a hr)

/-- What a run leaves behind is ordinary again. -/
theorem run {α : Type} (hw : w.Ordinary) (d : Dialogue α) : (d.run w).2.Ordinary := by
  induction d generalizing w with
  | done r => exact hw
  | ask a next ih => exact ih _ (hw.answer a)

/-- A fault of an operation other than reading is one of the system. -/
theorem use_error (hw : w.Ordinary) {α : Type} {op : Operation} (hop : op ≠ .read)
    {act : World → α × World} {f : Fault} (h : (w.use op act).1 = .error f) :
    ∃ text, f = .system text := by
  obtain ⟨p, hp, hplanned, rfl⟩ := exists_planned h
  -- the fault was planned for this operation, and so not for reading
  exact hw.faults p hp (by rwa [hplanned])

end World.Ordinary

/-! ### Runs that escape -/

theorem escapes_run_bind {α β : Type} {d : Dialogue α} {f : α → Dialogue β} {w : World} :
    Escapes ((d >>= f).run w).1 ↔
      Escapes (d.run w).1 ∨ ∃ a, (d.run w).1 = .ok a ∧ Escapes ((f a).run (d.run w).2).1 := by
  rcases hresult : (d.run w).1 with e | a
  · rw [run_bind_error hresult]
    simp
  · rw [run_bind_ok hresult]
    simp

/-- What is made of the value of a dialogue escapes where the dialogue does. -/
theorem escapes_run_map {α β : Type} {f : α → β} {d : Dialogue α} {w : World} :
    Escapes ((f <$> d).run w).1 ↔ Escapes (d.run w).1 := by
  rw [run_map]
  exact escapes_map f

namespace Dialogue

/-- No error escapes from a dialogue in ordinary surroundings. -/
def Contained {α : Type} (d : Dialogue α) : Prop :=
  ∀ w : World, w.Ordinary → ¬ Escapes (d.run w).1

variable {α β : Type}

theorem contained_ofExcept {r : Except Error α} (h : ¬ Escapes r) : (ofExcept r).Contained :=
  fun _ _ => h

theorem contained_pure (a : α) : (pure a : Dialogue α).Contained :=
  contained_ofExcept (not_escapes_ok a)

theorem contained_fail {e : Error} (h : e.isPlain = false) :
    (fail e : Dialogue α).Contained :=
  contained_ofExcept (by simp [h])

theorem contained_log (level : LogLevel) (source : LogSource) (text : String) :
    (log level source text).Contained :=
  fun _ _ => not_escapes_ok ()

theorem Contained.bind {d : Dialogue α} {f : α → Dialogue β} (hd : d.Contained)
    (hf : ∀ a, (f a).Contained) : (d >>= f).Contained := by
  intro w hw h
  rcases escapes_run_bind.1 h with h | ⟨a, -, h⟩
  · exact hd w hw h
  · exact hf a _ (hw.run d) h

/-- After an action, only answers of ordinary surroundings have to be looked at. -/
theorem contained_perform {a : Action} {f : a.Answer → Dialogue β}
    (hf : ∀ w : World, w.Ordinary → (f (w.answer a).1).Contained) :
    (perform a >>= f).Contained :=
  fun w hw => hf w hw _ (hw.answer a)

/-- A failure of the system is an error of the client's own. -/
theorem contained_attempt {answer : Except Fault α} {cause : String → TransportError}
    (h : ∀ f, answer = .error f → ∃ text, f = .system text) :
    (attempt answer (Fault.toError cause)).Contained := by
  cases answer with
  | ok a => exact contained_pure a
  | error f =>
    obtain ⟨text, rfl⟩ := h f rfl
    exact contained_fail rfl

end Dialogue

namespace Client

/-! ### Writing and closing -/

theorem contained_writeLine (line : String) : (writeLine line).Contained := by
  apply (contained_log _ _ _).bind
  intro _
  apply contained_perform
  intro w hw
  apply Contained.bind
  · exact contained_attempt fun f hf => hw.use_error (by simp) hf
  · intro _
    apply contained_perform
    intro v hv
    exact contained_attempt fun f hf => hv.use_error (by simp) hf

theorem contained_writeLines (lines : List String) : (writeLines lines).Contained := by
  induction lines with
  | nil => exact contained_pure ()
  | cons line lines ih => exact (contained_writeLine line).bind fun _ => ih

theorem contained_close : close.Contained := by
  apply contained_perform
  intro w _
  rcases (w.answer .close).1 with - | - | -
  · exact contained_pure ()
  · exact contained_log _ _ _
  · apply contained_perform
    intro v hv
    refine Contained.bind (contained_attempt ?_) fun _ => contained_log _ _ _
    exact fun f hf => hv.use_error (by simp) hf

/-! ### Reading -/

theorem not_escapes_lineOfBytes (bytes : List UInt8) : ¬ Escapes (lineOfBytes bytes) := by
  rw [lineOfBytes]
  split
  · simp [Error.isPlain]
  · split <;> simp [Error.isPlain]

theorem contained_readLine : readLine.Contained := by
  refine contained_perform fun w _ => Contained.bind ?_ fun bytes =>
    contained_ofExcept (not_escapes_lineOfBytes bytes)
  rcases (w.answer .readLine).1 with f | bytes
  · exact contained_fail rfl
  · exact contained_pure bytes

theorem contained_readLines (n : Nat) : (readLines n).Contained := by
  induction n with
  | zero => exact contained_pure []
  | succ n ih =>
    apply contained_readLine.bind
    intro line
    exact ih.bind fun lines => contained_pure (line :: lines)

end Client

/-- The next line is a status line, and its number is too long. -/
def World.StatusOverlong (w : World) : Prop :=
  ∃ line, (Client.readLine.run w).1 = .ok line ∧ Status.Overlong line

namespace Client

variable {w : World}

/-- In place of a status line, an error of reading stays an error of the client's own. -/
theorem isPlain_asStatusError {e : Error} (h : e.isPlain = false) :
    (asStatusError e).isPlain = false := by
  unfold asStatusError
  split
  · rfl
  · exact h

theorem escapes_readStatus (hw : w.Ordinary) :
    Escapes (readStatus.run w).1 ↔ w.StatusOverlong := by
  rw [readStatus, run_andThen, World.StatusOverlong]
  rcases hread : (readLine.run w).1 with e | line
  · have hplain : e.isPlain = false := by
      have hcontained := contained_readLine w hw
      rw [hread, escapes_error] at hcontained
      exact eq_false_of_ne_true hcontained
    simp [isPlain_asStatusError hplain]
  · dsimp only
    rw [escapes_run_bind, run_ofExcept, Status.escapes_ofLine]
    rw [or_iff_left]
    · simp
    -- what comes after the number is only looked at and kept
    rintro ⟨status, -, h⟩
    cases status with
    | accepted message pending =>
      exact (contained_log _ _ _).bind (fun _ => contained_pure _) _ (hw.run readLine) h
    | refused code message =>
      exact (contained_log _ _ _).bind (fun _ => contained_fail rfl) _ (hw.run readLine) h

/-- Reading a reply escapes at its status line or nowhere. -/
theorem escapes_readReply (hw : w.Ordinary) :
    Escapes (readReply.run w).1 ↔ w.StatusOverlong := by
  rw [readReply, escapes_run_bind, escapes_readStatus hw]
  apply or_iff_left
  rintro ⟨⟨message, pending⟩, -, h⟩
  have hrest := (contained_readLines pending).bind fun lines =>
    contained_pure (⟨message, lines⟩ : Reply)
  exact hrest _ (hw.run _) h

end Client

end RrdCache
