/-
RrdCache/Proofs/Session/Alignment.lean

A session stays aligned with its replies.  The daemon sends well-formed replies one after
the other, and a client makes calls one after the other.  Which reply belongs to which call
is nowhere written down: it follows from every call reading exactly as many replies as
`Call.takes` says, whether it gives a result or raises an error.

Main result (`aligned_of_enough`): as long as the replies last, every call of a session
reads its own replies to their last byte, and does what it would do if it were alone with
them.
-/
import RrdCache.Proofs.Client.Phases
import RrdCache.Proofs.Dialogue.Frame
import RrdCache.Proofs.Reply.Wire

namespace RrdCache

open Dialogue
open WireReply (stream)

/-! ### How many replies a call takes -/

namespace Course

/-- The number of replies that a call takes which had something to send. -/
def share : Course → List WireReply → Nat
  | order _ _, _ | update _, _ | pingAndClose, _ => 1
  | batch _ _, replies => if replies.head?.any (·.code < 0) then 1 else 2
  | leave, _ | close, _ => 0

end Course

namespace Call

/-- What a call writes down from this position of the clock, and the clock after it. -/
def written (c : Call) (clock : Clock) : Except Error (List String) × Clock :=
  let after := c.course.encode.run { incoming := [], clock := clock }
  (after.1, after.2.clock)

/-- The number of replies that a call takes off those that are coming: none if its request
has no line. -/
def takes (c : Call) (clock : Clock) (replies : List WireReply) : Nat :=
  match (c.written clock).1 with
  | .error _ => 0
  | .ok _ => c.course.share replies

end Call

/-- Whether there are as many replies as the calls take, one after the other. -/
def Enough : List Call → Clock → List WireReply → Prop
  | [], _, _ => True
  | c :: calls, clock, replies =>
    c.takes clock replies ≤ replies.length ∧
      Enough calls (c.written clock).2 (replies.drop (c.takes clock replies))

/-- A world without a past in which no fault will strike and these bytes are coming. -/
def World.alone (w : World) (bytes : List UInt8) : World :=
  { incoming := bytes, clock := w.clock, closing := w.closing }

/-- A call takes its own replies off the coming bytes, and does what it would do if it were
alone with them. -/
structure Call.KeepsTo (c : Call) (w : World) (own : List WireReply) (left : List UInt8) :
    Prop where
  consumed : w.incoming = stream own ++ left ∧ (c.dialogue.run w).2.incoming = left
  result : (c.dialogue.run w).1 = (c.dialogue.run (w.alone (stream own))).1
  sent : (c.dialogue.run w).2.sent = w.sent ++ (c.dialogue.run (w.alone (stream own))).2.sent
  uses : ∀ op, (c.dialogue.run w).2.uses op
    = w.uses op + (c.dialogue.run (w.alone (stream own))).2.uses op
  log : (c.dialogue.run w).2.log = w.log ++ (c.dialogue.run (w.alone (stream own))).2.log

/-- Every call of a session keeps to its own replies, and what no call takes is left over. -/
def Aligned (tail : List UInt8) : List Call → World → List WireReply → Prop
  | [], w, replies => w.incoming = stream replies ++ tail
  | c :: calls, w, replies =>
    c.KeepsTo w (replies.take (c.takes w.clock replies))
        (stream (replies.drop (c.takes w.clock replies)) ++ tail) ∧
      Aligned tail calls (c.dialogue.run w).2 (replies.drop (c.takes w.clock replies))

/-! ### Parts of calls without faults -/

namespace Client

variable {w : World} {rest tail : List UInt8}

theorem run_writeLine (hw : w.faults = []) (line : String) :
    ((writeLine line).run w).1 = .ok () := by
  have hwritten : ∀ v : World, v.faults = [] → (v.answer (.write line)).1 = .ok () := by
    intro v hv
    rw [World.answer, World.use_of_calm _ hv]
  have hdrained : ∀ v : World, v.faults = [] → (v.answer .drain).1 = .ok () := by
    intro v hv
    rw [World.answer, World.use_of_calm _ hv]
  rw [writeLine, run_bind, run_record]
  dsimp only
  rw [run_bind, run_perform]
  dsimp only
  rw [hwritten _ (by exact hw), attempt, run_bind]
  dsimp only [run_done]
  rw [run_bind, run_perform]
  dsimp only
  rw [hdrained _ (by rw [World.answer_faults]; exact hw)]
  rfl

/-- An exchange takes one reply, and no byte more. -/
theorem run_exchange (hw : w.faults = []) (line : String) (r : WireReply)
    (hin : w.incoming = r.bytes ++ rest) :
    ((exchange line).run w).1 = r.answer ∧ ((exchange line).run w).2.incoming = rest := by
  have hwrite : (writeLine line).Asks (· ≠ .readLine) :=
    asks_writeLine (by simp) (by simp) (by simp)
  rw [exchange, run_bind_ok (run_writeLine hw line)]
  refine run_readReply r ?_ ?_
  · rw [run_faults, hw]
  · rw [run_incoming hwrite, hin]

theorem run_writeLines (hw : w.faults = []) (lines : List String) :
    ((writeLines lines).run w).1 = .ok () := by
  induction lines generalizing w with
  | nil => rfl
  | cons line lines ih =>
    rw [writeLines, run_bind_ok (run_writeLine hw line)]
    exact ih (by rw [run_faults, hw])

/-- Writing takes no byte. -/
theorem run_writeLines_incoming (w : World) (lines : List String) :
    ((writeLines lines).run w).2.incoming = w.incoming :=
  run_incoming (asks_writeLines (by simp) (by simp) (by simp)) w

end Client

namespace Course

variable {w : World} {rest tail : List UInt8}

theorem run_delivering (hw : w.faults = []) (lines : List String)
    (decode : Reply → Except Error Outcome) (r : WireReply) (hin : w.incoming = r.bytes ++ rest) :
    ((delivering lines decode).run w).2.incoming = rest := by
  rw [delivering, run_bind_ok (Client.run_writeLines hw lines)]
  have hcalm : ((Client.writeLines lines).run w).2.faults = [] := by rw [run_faults, hw]
  have hcoming := (Client.run_writeLines_incoming w lines).trans hin
  obtain ⟨hanswer, hleft⟩ := Client.run_readReply r hcalm hcoming
  rcases hresult : r.answer with e | reply
  · rw [run_bind_error (hanswer.trans hresult), hleft]
  · rw [run_bind_ok (hanswer.trans hresult), run_ofExcept, hleft]

/-- The closing dot of a batch takes one reply. -/
theorem run_batchEnd (hw : w.faults = []) (finish : BatchOutcome → Except Error Outcome)
    (count : Nat) (r : WireReply) (hin : w.incoming = r.bytes ++ rest) :
    ((Client.request (.command .batchEnd) >>= concluding finish count).run w).2.incoming
      = rest := by
  obtain ⟨hanswer, hleft⟩ := Client.run_exchange hw ".\n" r hin
  rw [show Client.request (.command .batchEnd) = Client.exchange ".\n" from rfl]
  rcases hresult : r.answer with e | reply
  · rw [run_bind_error (hanswer.trans hresult), hleft]
  · rw [run_bind_ok (hanswer.trans hresult)]
    exact (run_incoming (asks_concluding (by simp) _ _ _) _).trans hleft

/-- A batch takes one reply if it is refused, and two otherwise. -/
theorem run_batch (hw : w.faults = []) (points : List Point)
    (finish : BatchOutcome → Except Error Outcome) (lines : List String)
    {replies : List WireReply} (hin : w.incoming = stream replies ++ tail)
    (henough : (batch points finish).share replies ≤ replies.length) :
    (((batch points finish).sending lines).run w).2.incoming
      = stream (replies.drop ((batch points finish).share replies)) ++ tail := by
  rcases replies with - | ⟨r, replies⟩
  · exact absurd henough (by simp [share])
  rw [WireReply.stream_cons, List.append_assoc] at hin
  obtain ⟨hanswer, hleft⟩ := Client.run_exchange hw "BATCH\n" r hin
  rw [sending, show Client.request (.command .batch) = Client.exchange "BATCH\n" from rfl]
  by_cases hcode : r.code < 0
  · rw [WireReply.answer, if_pos hcode] at hanswer
    rw [run_bind_error hanswer, share, List.head?_cons, Option.any_some, decide_eq_true hcode]
    exact hleft
  · rw [WireReply.answer, if_neg hcode] at hanswer
    have hshare : (batch points finish).share (r :: replies) = 2 := by
      rw [share, List.head?_cons, Option.any_some, decide_eq_false hcode]
      rfl
    rw [hshare] at henough ⊢
    rcases replies with - | ⟨last, replies⟩
    · exact absurd henough (by simp)
    -- the lines between the two exchanges are written without reading
    have hcalm : ((Client.exchange "BATCH\n").run w).2.faults = [] := by rw [run_faults, hw]
    have hcoming := (Client.run_writeLines_incoming _ lines).trans hleft
    rw [WireReply.stream_cons, List.append_assoc] at hcoming
    rw [run_bind_ok hanswer, run_bind_ok (Client.run_writeLines hcalm lines)]
    exact run_batchEnd (by rw [run_faults, hcalm]) finish _ last hcoming

/-- What a call sends off brings in as many replies as it has a share in. -/
theorem run_sending (c : Course) (hw : w.faults = []) (lines : List String)
    {replies : List WireReply} (hin : w.incoming = stream replies ++ tail)
    (henough : c.share replies ≤ replies.length) :
    ((c.sending lines).run w).2.incoming
      = stream (replies.drop (c.share replies)) ++ tail := by
  -- one reply is taken wherever lines are sent and a reply is read
  have hdelivering : ∀ decode, 1 ≤ replies.length →
      ((delivering lines decode).run w).2.incoming = stream (replies.drop 1) ++ tail := by
    intro decode hone
    rcases replies with - | ⟨r, replies⟩
    · exact absurd hone (by simp)
    · rw [WireReply.stream_cons, List.append_assoc] at hin
      exact run_delivering hw lines decode r hin
  cases c with
  | order | update => exact hdelivering _ henough
  | batch points finish => exact run_batch hw points finish lines hin henough
  | leave =>
    rw [sending, silent, run_map]
    exact (Client.run_writeLines_incoming w lines).trans hin
  | close =>
    rw [sending, silent, run_map]
    exact (run_incoming (Client.asks_close (by simp) (by simp) (by simp)) w).trans hin
  | pingAndClose =>
    rw [sending, Client.closing, run_andThen]
    have hclose : ∀ result : Except Error Outcome,
        (Client.close >>= fun _ => ofExcept result).Asks (· ≠ .readLine) := fun result =>
      (Client.asks_close (by simp) (by simp) (by simp)).bind fun _ => asks_ofExcept _
    exact (run_incoming (hclose _) _).trans (hdelivering _ henough)

end Course

/-! ### Whole calls -/

namespace Call

variable {w : World} {replies : List WireReply} {tail : List UInt8}

/-- What is written down depends on the clock only. -/
theorem written_eq (c : Call) (w : World) :
    c.written w.clock = ((c.course.encode.run w).1, (c.course.encode.run w).2.clock) := by
  obtain ⟨hlines, hworld⟩ := run_of_looks c.course.asks_encode w
    { incoming := [], clock := w.clock } rfl
  rw [written, hlines, hworld]
  rfl

/-- A call looks at the clock only while it writes down its lines. -/
theorem run_clock (c : Call) (w : World) :
    (c.dialogue.run w).2.clock = (c.written w.clock).2 := by
  rw [written_eq, dialogue_phases]
  rcases hlines : (c.course.encode.run w).1 with e | lines
  · rw [run_bind_error hlines]
  · rw [run_bind_ok hlines]
    exact Dialogue.run_clock ((c.course.asks_sending lines).mono fun _ h => h.1) _

/-- A call takes its replies, and leaves those after them. -/
theorem run_incoming (c : Call) (hw : w.faults = []) (hin : w.incoming = stream replies ++ tail)
    (henough : c.takes w.clock replies ≤ replies.length) :
    (c.dialogue.run w).2.incoming
      = stream (replies.drop (c.takes w.clock replies)) ++ tail := by
  have hencode : (c.course.encode.run w).2.incoming = w.incoming :=
    Dialogue.run_incoming (c.course.asks_encode.mono (by rintro _ rfl; simp)) w
  rw [takes, written_eq] at henough ⊢
  rw [dialogue_phases]
  rcases hlines : (c.course.encode.run w).1 with e | lines
  · rw [run_bind_error hlines]
    exact hencode.trans hin
  · simp only [hlines] at henough ⊢
    rw [run_bind_ok hlines]
    exact c.course.run_sending (by rw [run_faults, hw]) lines (hencode.trans hin) henough

/-- A call keeps to its own replies. -/
theorem keepsTo (c : Call) (hw : w.faults = []) (hin : w.incoming = stream replies ++ tail)
    (henough : c.takes w.clock replies ≤ replies.length) :
    c.KeepsTo w (replies.take (c.takes w.clock replies))
      (stream (replies.drop (c.takes w.clock replies)) ++ tail) := by
  generalize hn : c.takes w.clock replies = n at henough
  have hsplit : stream replies = stream (replies.take n) ++ stream (replies.drop n) := by
    rw [← WireReply.stream_append, List.take_append_drop]
  -- with one more byte behind the tail, the call leaves something over, so that it must have
  -- read whole lines; both runs are compared with that one
  let v := w.withIncoming (stream replies ++ (tail ++ [0]))
  have hv : v.incoming = stream (replies.take n) ++ (stream (replies.drop n) ++ (tail ++ [0])) := by
    rw [← List.append_assoc, ← hsplit]
    rfl
  have hvleft : (c.dialogue.run v).2.incoming = stream (replies.drop n) ++ (tail ++ [0]) := by
    have hrun := run_incoming (w := v) c hw rfl (hn ▸ henough)
    rw [hrun]
    exact hn ▸ rfl
  have hwhole := readsWhole_of_left c.dialogue (w := v) (by rw [hvleft]; simp)
  have hw' : w.incoming = stream (replies.take n) ++ (stream (replies.drop n) ++ tail) := by
    rw [hin, hsplit, List.append_assoc]
  have halone : (w.alone (stream (replies.take n))).incoming = stream (replies.take n) ++ [] :=
    (List.append_nil _).symm
  have hlike : World.Alike v w := .of_faults_nil rfl rfl hw hw
  have hlike' : World.Alike v (w.alone (stream (replies.take n))) :=
    .of_faults_nil rfl rfl hw rfl
  obtain ⟨hresult, htrace, hleft, -⟩ := run_alike c.dialogue hlike hv hw' hvleft hwhole
  obtain ⟨hresult', htrace', -, -⟩ := run_alike c.dialogue hlike' hv halone hvleft hwhole
  refine ⟨⟨hw', hleft⟩, hresult.symm.trans hresult', ?_, fun op => ?_, ?_⟩
  · rw [run_sent, run_sent, ← htrace, ← htrace']
    rfl
  · rw [run_uses, run_uses, ← htrace, ← htrace', show (w.alone _).uses op = 0 from rfl,
      Nat.zero_add]
  · rw [run_log, run_log, ← htrace, ← htrace']
    rfl

end Call

/-- As long as the replies last, a session without faults stays aligned with them. -/
theorem aligned_of_enough (calls : List Call) (w : World) (replies : List WireReply)
    (tail : List UInt8) (hw : w.faults = []) (hin : w.incoming = stream replies ++ tail)
    (henough : Enough calls w.clock replies) : Aligned tail calls w replies := by
  induction calls generalizing w replies with
  | nil => exact hin
  | cons c calls ih =>
    obtain ⟨hown, hlater⟩ := henough
    refine ⟨c.keepsTo hw hin hown, ih _ _ ?_ (c.run_incoming hw hin hown) ?_⟩
    · rw [run_faults, hw]
    · rw [c.run_clock]
      exact hlater

/-- The reply to a ping. -/
def WireReply.pong : WireReply where
  sign := []
  digits := ['0']
  gap := [' ']
  message := "PONG".toList
  body := []
  sign_cases := .inl rfl
  digits_ne_nil := by decide
  digits_isDigit := List.all_eq_true.1 (by decide)
  digits_length := by decide
  gap_ne_nil := by decide
  gap_isGap := List.all_eq_true.1 (by decide)
  message_isText := by decide
  body_lines := by simp
  body_length := by decide

/-- A refusal. -/
def WireReply.noSuchFile : WireReply where
  sign := ['-']
  digits := ['1']
  gap := [' ']
  message := "No such file".toList
  body := []
  sign_cases := .inr (.inr rfl)
  digits_ne_nil := by decide
  digits_isDigit := List.all_eq_true.1 (by decide)
  digits_length := by decide
  gap_ne_nil := by decide
  gap_isGap := List.all_eq_true.1 (by decide)
  message_isText := by decide
  body_lines := by simp
  body_length := by decide

/-- A refused call, one whose request has no line, and a ping. -/
theorem aligned_after_refusal :
    Aligned [88] [.last "cpu", .flush "no such", .ping]
      { incoming := stream [.noSuchFile, .pong] ++ [88], clock := .fixed (.int 0) }
      [.noSuchFile, .pong] :=
  aligned_of_enough _ _ _ _ rfl rfl (by
    refine ⟨?_, ?_, ?_, trivial⟩ <;> decide +kernel)

end RrdCache
