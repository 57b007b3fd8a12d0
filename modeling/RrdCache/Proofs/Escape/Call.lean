/-
RrdCache/Proofs/Escape/Call.lean

Calls that let an error escape.  Every error should be one of the client's own, whatever the
arguments of a call are, whatever the daemon sends and whatever fails in ordinary ways.
There are exceptions, and they are of two kinds: whole numbers of more than 4300 digits, which
are neither read nor written, and words on a data line that are spelt with a foreign letter i,
which have the shape of numbers and are none.

Main result (`Call.escapes_iff`): an error escapes from a call exactly if the call meets one
of these before it fails in another way.
-/
import RrdCache.Proofs.Client.Phases
import RrdCache.Proofs.Client.Points
import RrdCache.Proofs.Escape.Request
import RrdCache.Proofs.Escape.Wire

namespace RrdCache

open Dialogue

/-! ### Writing down -/

/-- A reading that is refused and cannot be shown. -/
def Reading.Overlong (r : Reading) : Prop :=
  ∃ i : Int, r = .ok (.int i) ∧ i < 0 ∧ Numeral.Overlong i

theorem escapes_seconds {clock : Clock} (h : clock.IsOrdinary) :
    Escapes clock.next.seconds ↔ clock.next.Overlong := by
  rcases hnext : clock.next with e | v
  · obtain ⟨cause, rfl⟩ := h _ List.mem_cons_self e hnext
    simp [Reading.seconds, Reading.Overlong, Error.isPlain]
  · rw [Reading.seconds, Reading.Overlong]
    split
    · rename_i t ht
      apply iff_of_false (not_escapes_ok t)
      rintro ⟨i, hi, hnegative, -⟩
      obtain rfl := Except.ok.inj hi
      simp [Scalar.epoch?, Int.not_le.2 hnegative] at ht
    · rename_i hnone
      rw [escapes_error, isPlain_showing, Scalar.Overlong]
      simp only [Error.isPlain, Bool.false_eq_true, or_false, Except.ok.injEq]
      refine exists_congr fun i => and_congr_right ?_
      rintro rfl
      refine (and_iff_right ?_).symm
      by_contra hnatural
      simp [Scalar.epoch?, Int.not_lt.1 hnatural] at hnone

namespace Point

/-- A point whose line, from this position of the clock, has a number that is too long, or
whose time is refused and cannot be shown. -/
def OverlongFrom (p : Point) (clock : Clock) : Prop :=
  (p.timestamp = none ∧ clock.next.Overlong) ∨
    ∃ time, p.timeFrom clock = .ok time ∧ p.Overlong time

theorem escapes_lineFrom {p : Point} {clock : Clock} (h : clock.IsOrdinary) :
    Escapes (p.lineFrom clock) ↔ p.OverlongFrom clock := by
  rw [lineFrom, escapes_bind, OverlongFrom]
  simp only [escapes_line]
  apply or_congr_left
  rw [timeFrom]
  rcases p.timestamp with - | t
  · simp [escapes_seconds h]
  · simp

/-- Points of which one is too long, and every one before it has a line. -/
def BatchOverlong : List Point → Clock → Prop
  | [], _ => False
  | p :: points, clock =>
    p.OverlongFrom clock ∨
      (∃ line, p.lineFrom clock = .ok line) ∧ BatchOverlong points (p.clockAfter clock)

theorem escapes_updateLines {points : List Point} {w : World} (hw : w.Ordinary) :
    Escapes ((Client.updateLines points).run w).1 ↔ BatchOverlong points w.clock := by
  induction points generalizing w with
  | nil => simp [Client.updateLines, BatchOverlong]
  | cons p points ih =>
    have hlater := ih (hw.run (Client.updateLine p))
    rw [Client.updateLines, escapes_run_bind, BatchOverlong]
    simp only [escapes_run_bind, hlater]
    rw [Client.run_updateLine, escapes_lineFrom hw.clock]
    simp [World.withClock]

end Point

/-- A call with an argument, or a reading of the clock, that cannot be written down or shown
for its length. -/
def Call.WritingOverlong (c : Call) (clock : Clock) : Prop :=
  let updates (path : String) (timestamp : Scalar) (values : List Scalar) : Prop :=
    Point.PartsOverlong timestamp values ∨
      ∃ p, Point.ofParts path timestamp values = .ok p ∧ p.OverlongFrom clock
  match c with
  | update path timestamp values => updates path timestamp values
  | updateOne path timestamp value => updates path timestamp [value]
  | batch points | batchOutcome points => Point.BatchOverlong points clock
  | create series => series.Overlong
  | fetch query => query.Overlong
  | first path archive => (Command.first path archive).Overlong
  | _ => False

namespace Course

theorem escapes_pointLine {path : String} {timestamp : Scalar} {values : List Scalar} {w : World}
    (hw : w.Ordinary) : Escapes ((pointLine (Point.ofParts path timestamp values)).run w).1 ↔
      Point.PartsOverlong timestamp values ∨
        ∃ p, Point.ofParts path timestamp values = .ok p ∧ p.OverlongFrom w.clock := by
  rw [pointLine, escapes_run_bind, run_ofExcept, Point.escapes_ofParts]
  simp only [Client.run_updateLine, Point.escapes_lineFrom hw.clock]

end Course

theorem Call.escapes_encode {c : Call} {w : World} (hw : w.Ordinary) :
    Escapes (c.course.encode.run w).1 ↔ c.WritingOverlong w.clock := by
  have hrequest : ∀ r : Request,
      Escapes ((([·]) <$> ofExcept r.line : Dialogue (List String)).run w).1 ↔ r.Overlong :=
    fun r => escapes_run_map.trans Request.escapes_line
  cases c with
  | update path timestamp values => exact escapes_run_map.trans (Course.escapes_pointLine hw)
  | updateOne path timestamp value => exact escapes_run_map.trans (Course.escapes_pointLine hw)
  | batch points => exact Point.escapes_updateLines hw
  | batchOutcome points => exact Point.escapes_updateLines hw
  | quit => exact hrequest (.command .quit)
  | close => exact iff_of_false (not_escapes_ok []) id
  | _ => exact hrequest _

/-! ### Reading -/

/-- A reply that is read, and that a call can make nothing of for its length or for a foreign
letter. -/
def Call.ReadingOverlong (c : Call) (reply : Reply) : Prop :=
  match c with
  | stats => FirstIs (fun l => ∃ s, Statistic.ofLine l = .ok s) Statistic.Overlong reply.lines
  | queue => FirstIs (fun l => ∃ e, QueueEntry.ofLine l = .ok e) QueueEntry.Overlong reply.lines
  | fetch _ => Table.Unreadable reply.lines
  | first _ _ | last _ => IsOverlongCount reply.message
  | _ => False

/-- What a call makes of its reply; of a batch's replies, the last one. -/
def Course.decode : Course → Reply → Except Error Outcome
  | order _ decode => decode
  | batch _ finish => fun reply => finish reply.outcome
  | pingAndClose => Reply.expected "PONG"
  | update _ | leave | close => Reply.nothing

theorem Call.escapes_decode {c : Call} {reply : Reply} :
    Escapes (c.course.decode reply) ↔ c.ReadingOverlong reply := by
  -- a message that is not the expected one is an error of the client's own
  have hexpected : ∀ message, ¬ Escapes (Reply.expected message reply) := by
    intro message
    rw [Reply.expected]
    split <;> simp [Error.isPlain]
  have htime : Escapes (Reply.time reply) ↔ IsOverlongCount reply.message := by
    rw [Reply.time, escapes_map, escapes_readTimestamp]
  cases c with
  | stats =>
    show Escapes (Reply.stats reply) ↔ _
    rw [Reply.stats, escapes_map, escapes_mapM, ReadingOverlong]
    simp only [Statistic.escapes_ofLine]
  | queue =>
    show Escapes (Reply.queue reply) ↔ _
    rw [Reply.queue, escapes_map, escapes_mapM, ReadingOverlong]
    simp only [QueueEntry.escapes_ofLine]
  | fetch query =>
    show Escapes (Reply.table reply) ↔ _
    rw [Reply.table, escapes_map, Table.escapes_ofLines, ReadingOverlong]
  | first path archive => exact htime
  | last path => exact htime
  | ping | create _ | pingAndClose => exact iff_of_false (hexpected _) id
  | batch points =>
    refine iff_of_false ?_ id
    show ¬ Escapes ((fun _ => Outcome.nothing) <$> reply.outcome.check)
    rw [escapes_map, BatchOutcome.check]
    split <;> simp [Error.isPlain]
  | _ => exact iff_of_false (not_escapes_ok _) id

/-! ### Sending -/

/-- These lines are sent, and the reply to them has a status that is too long, or it is read
and is a bad one. -/
def World.Answers (w : World) (lines : List String) (bad : Reply → Prop) : Prop :=
  ((Client.writeLines lines).run w).1 = .ok () ∧
    (((Client.writeLines lines).run w).2.StatusOverlong ∨
      ∃ reply, (Client.readReply.run ((Client.writeLines lines).run w).2).1 = .ok reply ∧
        bad reply)

/-- Lines and a reply escape with the status line or with what is made of the reply. -/
theorem escapes_writeLines_bind {α : Type} {w : World} (hw : w.Ordinary) {lines : List String}
    {f : Reply → Dialogue α} {bad : Reply → Prop}
    (hf : ∀ reply v, Escapes ((f reply).run v).1 ↔ bad reply) :
    Escapes ((Client.writeLines lines >>= fun _ => Client.readReply >>= f).run w).1 ↔
      w.Answers lines bad := by
  rw [escapes_run_bind, or_iff_right (Client.contained_writeLines lines w hw), World.Answers,
    Unique.exists_iff]
  apply and_congr_right
  intro _
  rw [escapes_run_bind, Client.escapes_readReply (hw.run _)]
  simp only [hf]

namespace Course

/-- What a call sends, or the reply to it, lets an error escape; the reply to the last line is
bad if it is one of these.  A batch has two replies, and closing may fail in place of what
came before. -/
def SendingOverlong (bad : Reply → Prop) : Course → List String → World → Prop
  | order _ _, lines, w | update _, lines, w => w.Answers lines bad
  | batch _ _, lines, w =>
    w.Answers ["BATCH\n"] (fun _ => False) ∨
      ∃ reply, ((Client.exchange "BATCH\n").run w).1 = .ok reply ∧
        ((Client.exchange "BATCH\n").run w).2.Answers (lines ++ [".\n"]) bad
  | leave, _, _ | close, _, _ => False
  | pingAndClose, lines, w =>
    w.Answers lines bad ∧
      (Client.close.run ((delivering lines (Reply.expected "PONG")).run w).2).1 = .ok ()

theorem escapes_delivering {w : World} (hw : w.Ordinary) (lines : List String)
    (decode : Reply → Except Error Outcome) :
    Escapes ((delivering lines decode).run w).1 ↔
      w.Answers lines fun reply => Escapes (decode reply) :=
  escapes_writeLines_bind hw fun _ _ => Iff.rfl

/-- The end of a batch keeps at most a record before its outcome is looked at. -/
theorem escapes_concluding (finish : BatchOutcome → Except Error Outcome) (count : Nat)
    (reply : Reply) (w : World) :
    Escapes ((concluding finish count reply).run w).1 ↔ Escapes (finish reply.outcome) := by
  rw [concluding]
  split
  · show Escapes ((log _ _ _ >>= fun _ => ofExcept _).run w).1 ↔ _
    simp [escapes_run_bind]
  · rfl

theorem writeLines_append (lines : List String) (last : String) :
    Client.writeLines (lines ++ [last])
      = Client.writeLines lines >>= fun _ => Client.writeLine last := by
  induction lines with
  | nil => exact writeLines_singleton last
  | cons line lines ih =>
    rw [List.cons_append, Client.writeLines, ih, Client.writeLines, bind_assoc]

theorem escapes_batch {w : World} (hw : w.Ordinary) (points : List Point)
    (finish : BatchOutcome → Except Error Outcome) (lines : List String) :
    Escapes (((batch points finish).sending lines).run w).1 ↔
      (batch points finish).SendingOverlong (fun reply => Escapes (finish reply.outcome))
        lines w := by
  have hopen : Escapes ((Client.exchange "BATCH\n").run w).1 ↔
      w.Answers ["BATCH\n"] fun _ => False := by
    rw [Client.exchange, ← writeLines_singleton, ← bind_pure Client.readReply]
    exact escapes_writeLines_bind hw fun reply _ => iff_of_false (not_escapes_ok reply) id
  -- the closing dot is one more line after the updates
  have hsending : (batch points finish).sending lines = Client.exchange "BATCH\n" >>= fun _ =>
      Client.writeLines (lines ++ [".\n"]) >>= fun _ =>
        Client.readReply >>= concluding finish lines.length := by
    show Client.exchange "BATCH\n" >>= (fun _ => Client.writeLines lines >>= fun _ =>
      Client.exchange ".\n" >>= concluding finish lines.length) = _
    simp only [writeLines_append, Client.exchange, bind_assoc]
  rw [hsending, escapes_run_bind, hopen, SendingOverlong]
  refine or_congr_right (exists_congr fun reply => and_congr_right fun _ => ?_)
  exact escapes_writeLines_bind (hw.run _) fun reply v => escapes_concluding finish _ reply v

theorem escapes_sending {w : World} (hw : w.Ordinary) (c : Course) (lines : List String) :
    Escapes ((c.sending lines).run w).1 ↔
      c.SendingOverlong (fun reply => Escapes (c.decode reply)) lines w := by
  cases c with
  | order | update => exact escapes_delivering hw _ _
  | batch points finish => exact escapes_batch hw points finish lines
  | leave =>
    exact iff_of_false (escapes_run_map.not.2 (Client.contained_writeLines lines w hw)) id
  | close => exact iff_of_false (escapes_run_map.not.2 (Client.contained_close w hw)) id
  | pingAndClose =>
    -- closing never escapes, so what escapes came before it and was not replaced
    rw [sending, Client.closing, run_andThen, SendingOverlong, ← escapes_delivering hw,
      escapes_run_bind, or_iff_right (Client.contained_close _ (hw.run _)), Unique.exists_iff]
    exact and_comm

end Course

/-! ### Whole calls -/

/-- A call meets, before it fails in another way, a number that is too long or a word with a
foreign letter. -/
def Call.Overlong (c : Call) (w : World) : Prop :=
  c.WritingOverlong w.clock ∨
    ∃ lines, (c.course.encode.run w).1 = .ok lines ∧
      c.course.SendingOverlong c.ReadingOverlong lines (c.course.encode.run w).2

/-- In ordinary surroundings an error escapes from a call exactly if the call meets a number
that is too long or a word with a foreign letter. -/
theorem Call.escapes_iff (c : Call) (w : World) (hw : w.Ordinary) :
    Escapes (c.dialogue.run w).1 ↔ c.Overlong w := by
  have hdecode : (fun reply => Escapes (c.course.decode reply)) = c.ReadingOverlong :=
    funext fun _ => propext escapes_decode
  rw [dialogue_phases, escapes_run_bind, escapes_encode hw, Overlong]
  simp only [Course.escapes_sending (hw.run _), hdecode]

/-- A daemon that answers a query with an infinity spelt with a dotless i. -/
def World.dotless : World where
  incoming := "1 ok\n1: ınf\n".toUTF8.data.toList
  clock := .fixed (.int 1000)

theorem World.ordinary_dotless : World.dotless.Ordinary := by
  refine ⟨by simp [dotless], ?_⟩
  intro r hr e he
  obtain rfl := List.mem_singleton.1 hr
  cases he

theorem run_dotless : ((Call.fetch { path := "x" }).dialogue.run World.dotless).1
    = .error (.numeral (.notNumber "ınf")) := by
  decide +kernel

/-- The call that meets the dotless i is one that an error escapes from. -/
theorem Call.overlong_dotless :
    World.dotless.Ordinary ∧ (Call.fetch { path := "x" }).Overlong World.dotless :=
  ⟨World.ordinary_dotless,
    (Call.escapes_iff _ _ World.ordinary_dotless).1 ⟨_, run_dotless, rfl⟩⟩

/-- The errors that calls raise are not all of the client's own. -/
theorem Call.escapes_dotless :
    ¬ ∀ (c : Call) (w : World), w.Ordinary → ¬ Escapes (c.dialogue.run w).1 :=
  fun h => h _ _ World.ordinary_dotless ⟨_, run_dotless, rfl⟩

end RrdCache
