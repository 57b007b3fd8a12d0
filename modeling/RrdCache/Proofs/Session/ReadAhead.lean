/-
RrdCache/Proofs/Session/ReadAhead.lean

No step of a session reads ahead.  What a step does, and what it makes of a reply, is a
matter of the bytes that it takes: any other bytes may come behind them, or none, and the
step gives the same result, does the same and leaves the other bytes where they are.  The
replies may be malformed, and faults may strike anywhere; only a line that breaks off at the
end of the bytes is an exception, since a byte behind it would be part of the line.

Main results: `run_withIncoming` for any dialogue, and `Step.takes_only_consumed`.
-/
import RrdCache.Proofs.Session.Lines
import RrdCache.Proofs.Dialogue.Frame

namespace RrdCache

open Dialogue

theorem World.alike_withIncoming (w : World) (bytes : List UInt8) :
    World.Alike w (w.withIncoming bytes) :=
  ⟨rfl, rfl, fun _ _ => rfl⟩

namespace Dialogue

variable {α : Type}

/-- The number of bytes that a run takes. -/
def consumed (d : Dialogue α) (w : World) : Nat :=
  w.incoming.length - (d.run w).2.incoming.length

/-- A run leaves the coming bytes behind those that it takes. -/
theorem run_left (d : Dialogue α) (w : World) :
    (d.run w).2.incoming = w.incoming.drop (d.consumed w) := by
  obtain ⟨own, hown⟩ := d.run_incoming_suffix w
  have hlength : d.consumed w = own.length := by
    rw [consumed, ← hown, List.length_append, Nat.add_sub_cancel]
  rw [hlength, ← hown, List.drop_left]

/-- A run that reads whole lines only is the same with other bytes behind those that it
takes. -/
theorem run_withIncoming (d : Dialogue α) (w : World) (bytes : List UInt8)
    (hwhole : ∀ e ∈ d.trace w, e.ReadsWhole)
    (hagree : bytes.take (d.consumed w) = w.incoming.take (d.consumed w)) :
    d.run (w.withIncoming bytes)
        = ((d.run w).1, (d.run w).2.withIncoming (bytes.drop (d.consumed w))) ∧
      d.trace (w.withIncoming bytes) = d.trace w := by
  have hw : w.incoming = w.incoming.take (d.consumed w) ++ w.incoming.drop (d.consumed w) :=
    (List.take_append_drop _ _).symm
  have hv : (w.withIncoming bytes).incoming
      = w.incoming.take (d.consumed w) ++ bytes.drop (d.consumed w) := by
    rw [← hagree, List.take_append_drop]
    rfl
  obtain ⟨hresult, htrace, hleft, hafter⟩ :=
    d.run_alike (w.alike_withIncoming bytes) hw hv (d.run_left w) hwhole
  refine ⟨Prod.ext hresult.symm ?_, htrace.symm⟩
  -- what was done is read off the trace, and the rest of the world is alike
  have huses : (d.run (w.withIncoming bytes)).2.uses = (d.run w).2.uses := by
    funext op
    rw [run_uses, run_uses, htrace]
    rfl
  have hsent : (d.run (w.withIncoming bytes)).2.sent = (d.run w).2.sent := by
    rw [run_sent, run_sent, htrace]
    rfl
  have hdialed : (d.run (w.withIncoming bytes)).2.dialed = (d.run w).2.dialed := by
    rw [run_dialed, run_dialed, htrace]
    rfl
  have hclosed : (d.run (w.withIncoming bytes)).2.closed = (d.run w).2.closed := by
    rw [run_closed, run_closed, htrace]
    rfl
  have hlog : (d.run (w.withIncoming bytes)).2.log = (d.run w).2.log := by
    rw [run_log, run_log, htrace]
    rfl
  have hfaults : (d.run (w.withIncoming bytes)).2.faults = (d.run w).2.faults := by
    rw [run_faults, run_faults]
    rfl
  exact World.ext hleft hafter.clock.symm hfaults hafter.closing.symm huses hsent hdialed
    hclosed hlog

end Dialogue

/-- A step that reads whole lines only gives the same result, does the same and counts the
same with any other bytes behind those that it takes, and leaves these other bytes. -/
theorem Step.takes_only_consumed (step : Step) (w : World) (bytes : List UInt8)
    (hwhole : ∀ e ∈ step.dialogue.trace w, e.ReadsWhole)
    (hagree : bytes.take (step.dialogue.consumed w)
      = w.incoming.take (step.dialogue.consumed w)) :
    step.dialogue.run (w.withIncoming bytes)
        = ((step.dialogue.run w).1,
            (step.dialogue.run w).2.withIncoming (bytes.drop (step.dialogue.consumed w))) ∧
      step.dialogue.trace (w.withIncoming bytes) = step.dialogue.trace w :=
  step.dialogue.run_withIncoming w bytes hwhole hagree

/-- A daemon whose only statistic has no value, with the reply to a ping behind it. -/
def World.garbled : World where
  incoming := "1 statistics follow\nuptime\n0 PONG\n".toUTF8.data.toList
  clock := .fixed (.int 0)

/-- The same daemon with nothing behind the malformed reply. -/
def World.garbledBytes : List UInt8 :=
  "1 statistics follow\nuptime\n".toUTF8.data.toList

/-- Asking for statistics takes the malformed reply, and gives the same error without the
reply behind it. -/
theorem Step.takes_only_garbled :
    (∀ e ∈ (call .stats).dialogue.trace .garbled, e.ReadsWhole) ∧
      World.garbledBytes.take ((call .stats).dialogue.consumed .garbled)
        = World.garbled.incoming.take ((call .stats).dialogue.consumed .garbled) ∧
      (call .stats).dialogue.run (World.garbled.withIncoming World.garbledBytes)
        = (.error (.line (.stats "uptime\n")),
            ((call .stats).dialogue.run .garbled).2.withIncoming []) := by
  have hwhole : ∀ e ∈ (call .stats).dialogue.trace .garbled, e.ReadsWhole :=
    (call .stats).dialogue.readsWhole_of_left (by decide +kernel)
  have hagree : World.garbledBytes.take ((call .stats).dialogue.consumed .garbled)
      = World.garbled.incoming.take ((call .stats).dialogue.consumed .garbled) := by
    decide +kernel
  have hresult : ((call .stats).dialogue.run .garbled).1
      = .error (.line (.stats "uptime\n")) := by
    decide +kernel
  have hrest : World.garbledBytes.drop ((call .stats).dialogue.consumed .garbled) = [] := by
    decide +kernel
  have hrun := (takes_only_consumed (call .stats) .garbled World.garbledBytes hwhole hagree).1
  rw [hresult, hrest] at hrun
  exact ⟨hwhole, hagree, hrun⟩

end RrdCache
