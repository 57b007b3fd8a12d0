/-
RrdCache/Proofs/Client/Writes.lean

What dialogues write.  `Writes d lines` says that, whatever faults strike, a run of `d` puts
some of the lines on the wire, in order and from the first one on, and all of them if it
gives a value.  Dialogues that follow each other write the lines of the one and then those
of the other (`Writes.bind`): an error between them cuts the lines off there.

Main result (`Course.writes_sending`): a call that wrote its lines down writes just these,
a batch with its two lines around them.
-/
import RrdCache.Proofs.Client.Phases
import RrdCache.Proofs.Dialogue.Trace

namespace RrdCache

open Dialogue

/-- A run writes some of these lines from the first one on, and all if it gives a value. -/
def Writes {α : Type} (d : Dialogue α) (lines : List String) : Prop :=
  ∀ w, ∃ sent, sent <+: lines ∧ (d.run w).2.sent = w.sent ++ sent ∧
    ∀ a, (d.run w).1 = .ok a → sent = lines

namespace Writes

variable {α β : Type} {d : Dialogue α} {lines more : List String}

/-- A dialogue that never writes writes no line. -/
theorem of_asks (hd : d.Asks fun a => ∀ line, a ≠ .write line) : Writes d [] := by
  intro w
  refine ⟨[], List.prefix_rfl, ?_, fun _ _ => rfl⟩
  rw [run_sent]
  congr 1
  apply List.flatMap_eq_nil_iff.2
  intro e he
  have hnot := hd.mem_trace he
  obtain ⟨action, answer⟩ := e
  cases action with
  | write line => exact absurd rfl (hnot line)
  | readLine | drain | close | waitClosed | dial _ | look | log _ => rfl

theorem bind {f : α → Dialogue β} (hd : Writes d lines) (hf : ∀ a, Writes (f a) more) :
    Writes (d >>= f) (lines ++ more) := by
  intro w
  obtain ⟨sent, hprefix, hsent, hall⟩ := hd w
  rcases hresult : (d.run w).1 with e | a
  · refine ⟨sent, hprefix.trans (List.prefix_append _ _), ?_, fun b hb => ?_⟩
    · rw [run_bind_error hresult, hsent]
    · rw [run_bind_error hresult] at hb
      cases hb
  · obtain rfl := hall a hresult
    obtain ⟨sent', hprefix', hsent', hall'⟩ := hf a (d.run w).2
    refine ⟨sent ++ sent', List.prefix_append_right_inj sent |>.2 hprefix', ?_, fun b hb => ?_⟩
    · rw [run_bind_ok hresult, hsent', hsent, List.append_assoc]
    · rw [run_bind_ok hresult] at hb
      rw [hall' b hb]

/-- What follows and writes nothing does not matter. -/
theorem bind_nil {f : α → Dialogue β} (hd : Writes d lines) (hf : ∀ a, Writes (f a) []) :
    Writes (d >>= f) lines := by
  have h := hd.bind hf
  rwa [List.append_nil] at h

/-- What goes before and writes nothing does not matter. -/
theorem nil_bind {f : α → Dialogue β} (hd : Writes d []) (hf : ∀ a, Writes (f a) lines) :
    Writes (d >>= f) lines :=
  hd.bind hf

theorem map (f : α → β) (hd : Writes d lines) : Writes (f <$> d) lines := by
  rw [map_eq_pure_bind]
  exact hd.bind_nil fun _ => of_asks (asks_done _)

end Writes

/-! ### Parts of a client -/

namespace Client

theorem writes_perform (line : String) (w : World) :
    ((∃ f, (w.answer (.write line)).1 = .error f) ∧ (w.answer (.write line)).2.sent = w.sent) ∨
      ((w.answer (.write line)).1 = .ok () ∧
        (w.answer (.write line)).2.sent = w.sent ++ [line]) := by
  rcases hf : w.planned? .write (w.uses .write + 1) with - | f
  · rw [World.answer, World.use_of_none _ hf]
    exact .inr ⟨rfl, rfl⟩
  · rw [World.answer, World.use_of_fault _ hf]
    exact .inl ⟨⟨f, rfl⟩, rfl⟩

/-- A line is written if the write is not refused; the wait after it adds nothing. -/
theorem writes_writeLine (line : String) : Writes (writeLine line) [line] := by
  have hwrite : Writes (perform (.write line) >>= fun written =>
      attempt written (Fault.toError .write)) [line] := by
    intro w
    rw [run_bind, run_perform]
    rcases writes_perform line w with ⟨⟨f, hanswer⟩, hsent⟩ | ⟨hanswer, hsent⟩
    · refine ⟨[], List.nil_prefix, ?_, ?_⟩
      · simp [hanswer, attempt, hsent]
      · simp [hanswer, attempt]
    · refine ⟨[line], List.prefix_rfl, ?_, fun _ _ => rfl⟩
      simp [hanswer, attempt, hsent]
  have hdrain : (perform .drain >>= fun drained =>
      attempt drained (Fault.toError .write)).Asks fun a => ∀ line, a ≠ .write line :=
    Asks.bind ((asks_perform _).2 (by simp)) fun _ => asks_attempt _ _
  rw [writeLine]
  apply (Writes.of_asks ((asks_log _ _ _).2 (by simp))).nil_bind
  intro _
  rw [← bind_assoc]
  exact hwrite.bind_nil fun _ => .of_asks hdrain

theorem writes_writeLines (lines : List String) : Writes (writeLines lines) lines := by
  induction lines with
  | nil => exact .of_asks (asks_done _)
  | cons line lines ih => exact (writes_writeLine line).bind fun _ => ih

theorem writes_readReply : Writes readReply [] :=
  .of_asks (asks_readReply (by simp) (by simp))

theorem writes_exchange (line : String) : Writes (exchange line) [line] :=
  (writes_writeLine line).bind_nil fun _ => writes_readReply

/-- Closing writes nothing, and gives a value only if the dialogue before it did. -/
theorem writes_closing {α : Type} {d : Dialogue α} {lines : List String} (hd : Writes d lines) :
    Writes (closing d) lines := by
  intro w
  obtain ⟨sent, hprefix, hsent, hall⟩ := hd w
  have hclose : Writes (close >>= fun _ => ofExcept (d.run w).1) [] :=
    .of_asks ((asks_close (by simp) (by simp) (by simp)).bind fun _ => asks_ofExcept _)
  obtain ⟨sent', hprefix', hsent', -⟩ := hclose (d.run w).2
  obtain rfl := List.prefix_nil.1 hprefix'
  rw [closing, run_andThen]
  refine ⟨sent, hprefix, by rw [hsent', hsent, List.append_nil], fun a ha => hall a ?_⟩
  rcases hresult : (close.run (d.run w).2).1 with e | u
  · rw [run_bind_error hresult] at ha
    cases ha
  · rwa [run_bind_ok hresult, run_ofExcept] at ha

end Client

/-! ### Calls -/

namespace Course

/-- The lines of a call on the wire. -/
def wire : Course → List String → List String
  | batch _ _, lines => "BATCH\n" :: (lines ++ [".\n"])
  | close, _ => []
  | _, lines => lines

theorem writes_delivering (lines : List String) (decode : Reply → Except Error Outcome) :
    Writes (delivering lines decode) lines := by
  apply (Client.writes_writeLines lines).bind_nil
  intro _
  exact Client.writes_readReply.bind_nil fun _ => .of_asks (asks_ofExcept _)

theorem writes_sending (c : Course) (lines : List String) :
    Writes (c.sending lines) (c.wire lines) := by
  cases c with
  | order | update => exact writes_delivering lines _
  | batch points finish =>
    show Writes _ (["BATCH\n"] ++ (lines ++ [".\n"]))
    apply Writes.bind (Client.writes_exchange "BATCH\n")
    intro _
    apply (Client.writes_writeLines lines).bind
    intro _
    exact (Client.writes_exchange ".\n").bind_nil fun _ =>
      .of_asks (asks_concluding (by simp) _ _ _)
  | leave => exact (Client.writes_writeLines lines).map _
  | close => exact .map _ (.of_asks (Client.asks_close (by simp) (by simp) (by simp)))
  | pingAndClose => exact Client.writes_closing (writes_delivering lines _)

end Course

end RrdCache
