/-
RrdCache/Proofs/Session/Batch.lean

The dialogue of a batch.  A batch is opened by a line of its own, and the daemon has to
accept it before any update goes out; a dot closes the batch, and the reply to the dot lists
the updates that were rejected.  Reads and writes may fail at any point and replies may be
refusals, malformed or cut short, and still:

* what was sent is at any time a part of the batch's lines, from the first one on;
* each line is handed over only after all that must come before it (`BatchOrder`);
* a batch has an outcome exactly if nothing fails and both replies accept (`Completes`), and
  the outcome is then what the last reply says.

Main result (`batch_dialogue`).
-/
import RrdCache.Proofs.Client.Points
import RrdCache.Proofs.Client.Writes
import RrdCache.Proofs.Dialogue.Order
import RrdCache.Proofs.Reply.Readable
import RrdCache.Proofs.Session.Alignment

namespace RrdCache

open Dialogue

/-! ### What a batch is -/

/-- All lines of a batch; there is none if some point has no line. -/
def Point.batchLines (points : List Point) (clock : Clock) : List String :=
  match linesFrom points clock with
  | .ok lines => "BATCH\n" :: (lines ++ [".\n"])
  | .error _ => []

/-- What happens when a line is sent: it is handed over, and it is on its way. -/
def delivered (line : String) : List Event :=
  [⟨.write line, .ok ()⟩, ⟨.drain, .ok ()⟩]

/-- What a batch of these lines has done on its connection when it hands over a line. -/
inductive BatchOrder (lines : List String) : List Event → String → Prop
  /-- Nothing comes before the opening line. -/
  | opening : BatchOrder lines [] "BATCH\n"
  /-- Before an update, the opening line was sent, a reply that accepts it was read to its
  last line, and the updates before were sent. -/
  | update (opened : WireReply) (accepts : 0 ≤ opened.code) (done : List String)
      (line : String) (rest : List String) (split : lines = done ++ line :: rest) :
    BatchOrder lines (delivered "BATCH\n" ++ opened.received ++ done.flatMap delivered) line
  /-- Before the dot, all updates were sent. -/
  | closing (opened : WireReply) (accepts : 0 ≤ opened.code) :
    BatchOrder lines (delivered "BATCH\n" ++ opened.received ++ lines.flatMap delivered) ".\n"

/-- A batch that goes through: all points have lines, nothing that the batch does fails, and
the daemon accepts the opening line and the dot. -/
structure Completes (points : List Point) (w : World) (opened closed : WireReply) : Prop where
  encodes : ∃ lines, Point.linesFrom points w.clock = .ok lines
  sound : ∀ e ∈ (Client.batchOutcome points).traffic w, ¬ e.Failed
  opens : 0 ≤ opened.code
  closes : 0 ≤ closed.code
  replies : opened.bytes ++ closed.bytes <+: w.incoming

/-- How a batch ended according to the reply to its dot: the message, and the further lines
without their line feeds. -/
def WireReply.outcome (r : WireReply) : BatchOutcome :=
  ⟨r.text, r.body.map String.ofList⟩

/-! ### Sending a line -/

namespace Client

variable {w : World}

theorem attempt_eq_ok {answer : Except Fault Unit} {meaning : Fault → Error}
    (h : ((attempt answer meaning).run w).1 = .ok ()) : answer = .ok () := by
  cases answer with
  | ok u => rfl
  | error f => cases h

/-- A line that was sent without a fault was handed over, and is on its way. -/
theorem run_writeLine_ok {line : String} (h : ((writeLine line).run w).1 = .ok ()) :
    (writeLine line).traffic w = delivered line := by
  obtain ⟨u, hlog, h⟩ := run_bind_eq_ok.1 h
  obtain ⟨written, hwrite, h⟩ := run_bind_eq_ok.1 h
  obtain ⟨⟨⟩, hwritten, h⟩ := run_bind_eq_ok.1 h
  obtain ⟨drained, hdrain, h⟩ := run_bind_eq_ok.1 h
  rw [writeLine, traffic_bind_ok hlog, traffic_bind_ok hwrite, traffic_bind_ok hwritten,
    traffic_bind_ok hdrain, traffic_perform rfl, traffic_perform rfl, World.event, World.event,
    Except.ok.inj hwrite, Except.ok.inj hdrain, attempt_eq_ok hwritten, attempt_eq_ok h]
  rfl

theorem run_writeLines_ok {lines : List String} (h : ((writeLines lines).run w).1 = .ok ()) :
    (writeLines lines).traffic w = lines.flatMap delivered := by
  induction lines generalizing w with
  | nil => rfl
  | cons line lines ih =>
    obtain ⟨⟨⟩, hline, h⟩ := run_bind_eq_ok.1 h
    rw [writeLines, traffic_bind_ok hline, run_writeLine_ok hline, ih h, List.flatMap_cons]

/-- A line that was answered was sent, and its answer was read to the end. -/
theorem run_exchange_ok {line : String} {reply : Reply}
    (h : ((exchange line).run w).1 = .ok reply) :
    ∃ r : WireReply, 0 ≤ r.code ∧ reply = ⟨r.text, r.lines⟩ ∧
      (exchange line).traffic w = delivered line ++ r.received := by
  obtain ⟨⟨⟩, hline, h⟩ := run_bind_eq_ok.1 h
  obtain ⟨r, hcode, hreply, hread⟩ := run_readReply_ok h
  refine ⟨r, hcode, hreply, ?_⟩
  rw [exchange, traffic_bind_ok hline, run_writeLine_ok hline, hread]

variable {after : List Event → String → Prop} {past : List Event}

theorem inOrder_writeLine {line : String} (h : after past line) :
    (writeLine line).InOrder after past := by
  have hattempt (answer : Except Fault Unit) (past : List Event) :
      (attempt answer (Fault.toError .write)).InOrder after past :=
    .of_asks (asks_attempt _ _)
  refine InOrder.bind (.of_asks ((asks_log _ _ _).2 (by simp))) fun v _ _ => ?_
  rw [traffic_record, List.append_nil]
  refine InOrder.bind (.perform h) fun _ _ _ => ?_
  refine InOrder.bind (hattempt _ _) fun _ _ _ => ?_
  refine InOrder.bind (.of_asks ((asks_perform _).2 (by simp))) fun _ _ _ => hattempt _ _

/-- Lines are in order if each of them may come after those before it. -/
theorem inOrder_writeLines {lines : List String}
    (h : ∀ done line rest, lines = done ++ line :: rest →
      after (past ++ done.flatMap delivered) line) :
    (writeLines lines).InOrder after past := by
  induction lines generalizing past with
  | nil => exact .of_asks (asks_done _)
  | cons line lines ih =>
    have hfirst : after past line := by
      have := h [] line lines rfl
      rwa [List.flatMap_nil, List.append_nil] at this
    refine (inOrder_writeLine hfirst).bind fun w _ hline => ih fun done later rest hsplit => ?_
    rw [run_writeLine_ok hline, List.append_assoc]
    exact h (line :: done) later rest (congrArg _ hsplit)

theorem inOrder_exchange {line : String} (h : after past line) :
    (exchange line).InOrder after past :=
  (inOrder_writeLine h).bind fun _ _ _ => .of_asks (asks_readReply (by simp) (by simp))

/-! ### Sending a batch -/

/-- The outcome of a batch of a number of updates, with a record if some were rejected. -/
def announce (o : BatchOutcome) (count : Nat) : Dialogue BatchOutcome := do
  if !o.isOk then
    Dialogue.log .warning .batch (o.summary count)
  pure o

theorem run_announce (o : BatchOutcome) (count : Nat) (w : World) :
    ((announce o count).run w).1 = .ok o := by
  rw [announce]
  split <;> rfl

theorem asks_announce {p : Action → Prop} (hlog : ∀ r, p (.log r)) (o : BatchOutcome)
    (count : Nat) : (announce o count).Asks p := by
  rw [announce]
  split
  · exact Asks.bind ((asks_log _ _ _).2 (hlog _)) fun _ => asks_done _
  · exact asks_done _

/-- Sends the lines of a batch, which were written down before, and gives its outcome. -/
def sendBatch (lines : List String) : Dialogue BatchOutcome := do
  let _ ← exchange "BATCH\n"
  writeLines lines
  let reply ← exchange ".\n"
  announce reply.outcome lines.length

theorem batchOutcome_eq (points : List Point) :
    batchOutcome points = updateLines points >>= sendBatch := rfl

theorem writes_sendBatch (lines : List String) :
    Writes (sendBatch lines) ("BATCH\n" :: (lines ++ [".\n"])) := by
  show Writes _ (["BATCH\n"] ++ (lines ++ [".\n"]))
  apply (writes_exchange "BATCH\n").bind
  intro _
  apply (writes_writeLines lines).bind
  intro _
  exact (writes_exchange ".\n").bind_nil fun reply =>
    .of_asks (asks_announce (by simp) _ _)

/-- Each line of a batch comes after all that must come before it. -/
theorem inOrder_sendBatch (lines : List String) :
    (sendBatch lines).InOrder (BatchOrder lines) [] := by
  refine (inOrder_exchange .opening).bind fun w _ hopened => ?_
  obtain ⟨opened, haccepts, -, htraffic⟩ := run_exchange_ok hopened
  rw [List.nil_append, htraffic]
  refine InOrder.bind (inOrder_writeLines fun done line rest hsplit => ?_) fun v _ hlines => ?_
  · exact .update opened haccepts done line rest hsplit
  · rw [run_writeLines_ok hlines]
    refine (inOrder_exchange (.closing opened haccepts)).bind fun _ _ _ => ?_
    exact .of_asks (asks_announce (by simp) _ _)

theorem chomp_line {line : List Char} (h : '\n' ∉ line) :
    chomp (String.ofList (line ++ ['\n'])) = String.ofList line := by
  have hkept : line.reverse.dropWhile (· == '\n') = line.reverse := by
    rcases hline : line.reverse with - | ⟨c, front⟩
    · rfl
    · have hc : c ∈ line := by
        rw [← List.mem_reverse, hline]
        exact List.mem_cons_self
      exact List.dropWhile_cons_of_neg (by simpa using ne_of_mem_of_not_mem hc h)
  rw [chomp, String.toList_ofList, trimEnd, List.reverse_append, List.reverse_singleton,
    List.singleton_append, List.dropWhile_cons_of_pos (by simp), hkept, List.reverse_reverse]

theorem chomp_lines (r : WireReply) : r.lines.map chomp = r.body.map String.ofList := by
  rw [WireReply.lines, List.map_map]
  exact List.map_congr_left fun line hline => chomp_line (r.body_lines line hline)

/-- What a client makes of the reply to the dot is its outcome. -/
theorem outcome_reply (r : WireReply) : (⟨r.text, r.lines⟩ : Reply).outcome = r.outcome := by
  rw [Reply.outcome, WireReply.outcome, chomp_lines]

/-- A batch that has an outcome was opened, sent and closed, and this is all that happened. -/
theorem run_sendBatch_ok {lines : List String} {o : BatchOutcome}
    (h : ((sendBatch lines).run w).1 = .ok o) :
    ∃ opened closed : WireReply, 0 ≤ opened.code ∧ 0 ≤ closed.code ∧ o = closed.outcome ∧
      (sendBatch lines).traffic w = delivered "BATCH\n" ++ opened.received
        ++ lines.flatMap delivered ++ (delivered ".\n" ++ closed.received) := by
  obtain ⟨_, hopened, h⟩ := run_bind_eq_ok.1 h
  obtain ⟨⟨⟩, hlines, h⟩ := run_bind_eq_ok.1 h
  obtain ⟨reply, hclosed, h⟩ := run_bind_eq_ok.1 h
  obtain ⟨opened, hopens, -, hfirst⟩ := run_exchange_ok hopened
  obtain ⟨closed, hcloses, rfl, hlast⟩ := run_exchange_ok hclosed
  rw [run_announce, outcome_reply] at h
  refine ⟨opened, closed, hopens, hcloses, (Except.ok.inj h).symm, ?_⟩
  rw [sendBatch, traffic_bind_ok hopened, traffic_bind_ok hlines, traffic_bind_ok hclosed,
    traffic_of_asks (asks_announce (fun _ => rfl) _ _), hfirst, run_writeLines_ok hlines, hlast]
  simp only [List.append_assoc, List.append_nil]

/-- Where no fault strikes, a batch that the daemon accepts twice has an outcome. -/
theorem run_sendBatch {rest : List UInt8} (hw : w.faults = []) (lines : List String)
    {opened closed : WireReply} (hopens : 0 ≤ opened.code) (hcloses : 0 ≤ closed.code)
    (hin : w.incoming = opened.bytes ++ (closed.bytes ++ rest)) :
    ((sendBatch lines).run w).1 = .ok closed.outcome := by
  obtain ⟨hanswer, hleft⟩ := run_exchange hw "BATCH\n" opened hin
  rw [WireReply.answer, if_neg (Int.not_lt.2 hopens)] at hanswer
  have hcalm : ((exchange "BATCH\n").run w).2.faults = [] := by rw [run_faults, hw]
  have hcalm' : ((writeLines lines).run ((exchange "BATCH\n").run w).2).2.faults = [] := by
    rw [run_faults, hcalm]
  have hcoming := (run_writeLines_incoming _ lines).trans hleft
  obtain ⟨hlast, -⟩ := run_exchange hcalm' ".\n" closed hcoming
  rw [WireReply.answer, if_neg (Int.not_lt.2 hcloses)] at hlast
  rw [sendBatch, run_bind_ok hanswer, run_bind_ok (run_writeLines hcalm lines),
    run_bind_ok hlast, run_announce, outcome_reply]

end Client

/-! ### Points as a batch -/

theorem not_failed_of_mem_delivered {line : String} {e : Event} (h : e ∈ delivered line) :
    ¬ e.Failed := by
  rcases List.mem_pair.1 h with rfl | rfl <;> exact id

theorem not_failed_of_mem_received {r : WireReply} {e : Event} (h : e ∈ r.received) :
    ¬ e.Failed := by
  obtain ⟨line, -, rfl⟩ := List.mem_map.1 h
  exact id

@[simp] theorem received_delivered (line : String) :
    (delivered line).flatMap Event.received = [] := rfl

theorem received_deliveries (lines : List String) :
    (lines.flatMap delivered).flatMap Event.received = [] := by
  induction lines with
  | nil => rfl
  | cons line lines ih =>
    rw [List.flatMap_cons, List.flatMap_append, ih, received_delivered, List.append_nil]

namespace Client

variable {points : List Point} {w : World}

/-- Writing points down is no traffic. -/
theorem traffic_updateLines (points : List Point) (w : World) :
    (updateLines points).traffic w = [] :=
  ((asks_updateLines points).onlyLooks w).traffic

theorem traffic_batchOutcome_error {e : Error} (h : Point.linesFrom points w.clock = .error e) :
    (batchOutcome points).traffic w = [] := by
  rw [batchOutcome_eq, traffic_bind_error ((run_updateLines points w).trans h),
    traffic_updateLines]

theorem traffic_batchOutcome_ok {lines : List String}
    (h : Point.linesFrom points w.clock = .ok lines) :
    (batchOutcome points).traffic w
      = (sendBatch lines).traffic ((updateLines points).run w).2 := by
  rw [batchOutcome_eq, traffic_bind_ok ((run_updateLines points w).trans h),
    traffic_updateLines, List.nil_append]

/-- What a batch sends are lines of it, from the first one on. -/
theorem sent_batchOutcome (points : List Point) (w : World) :
    ((batchOutcome points).traffic w).flatMap Event.sent
      <+: Point.batchLines points w.clock := by
  rw [Point.batchLines]
  rcases hlines : Point.linesFrom points w.clock with e | lines
  · rw [traffic_batchOutcome_error hlines]
    exact List.nil_prefix
  · obtain ⟨sent, hprefix, hsent, -⟩ := writes_sendBatch lines ((updateLines points).run w).2
    rw [run_sent_traffic] at hsent
    rw [traffic_batchOutcome_ok hlines, List.append_cancel_left hsent]
    exact hprefix

/-- A batch hands its lines over in order. -/
theorem inOrder_batchOutcome {lines : List String} {before after : List Event} {line : String}
    {answer : Except Fault Unit}
    (hlines : Point.linesFrom points w.clock = .ok lines)
    (h : (batchOutcome points).traffic w = before ++ ⟨.write line, answer⟩ :: after) :
    BatchOrder lines before line := by
  rw [traffic_batchOutcome_ok hlines] at h
  exact inOrder_sendBatch lines _ before line answer after h

/-- A batch has an outcome exactly if it goes through. -/
theorem run_batchOutcome_eq_ok {o : BatchOutcome} :
    ((batchOutcome points).run w).1 = .ok o ↔
      ∃ opened closed, Completes points w opened closed ∧ o = closed.outcome := by
  constructor
  · intro h
    obtain ⟨lines, hlines, hsend⟩ := run_bind_eq_ok.1 h
    rw [run_updateLines] at hlines
    obtain ⟨opened, closed, hopens, hcloses, ho, htraffic⟩ := run_sendBatch_ok hsend
    rw [← traffic_batchOutcome_ok hlines] at htraffic
    refine ⟨opened, closed, ⟨⟨lines, hlines⟩, ?_, hopens, hcloses, ?_⟩, ho⟩
    · intro e he
      simp only [htraffic, List.mem_append, List.mem_flatMap] at he
      rcases he with ((he | he) | ⟨line, -, he⟩) | (he | he)
      · exact not_failed_of_mem_delivered he
      · exact not_failed_of_mem_received he
      · exact not_failed_of_mem_delivered he
      · exact not_failed_of_mem_delivered he
      · exact not_failed_of_mem_received he
    · -- what was read stands in front of what is left, and nothing but the replies was read
      have hreceived := (batchOutcome points).run_received w
      simp only [htraffic, List.flatMap_append, WireReply.received_bytes,
        received_deliveries] at hreceived
      exact ⟨_, by simpa using hreceived.symm⟩
  · rintro ⟨opened, closed, hcompletes, rfl⟩
    obtain ⟨lines, hlines⟩ := hcompletes.encodes
    obtain ⟨rest, hin⟩ := hcompletes.replies
    -- as nothing fails, the run is one without a plan of faults
    have hcalm := run_calm hcompletes.sound
    have hresult : ((updateLines points).run w.calm).1 = .ok lines :=
      (run_updateLines points w.calm).trans hlines
    have hincoming : ((updateLines points).run w.calm).2.incoming
        = opened.bytes ++ (closed.bytes ++ rest) := by
      rw [run_incoming ((asks_updateLines points).mono (by rintro _ rfl; simp)),
        ← List.append_assoc, hin]
      rfl
    have hsend := run_sendBatch (by rw [run_faults]; rfl) lines hcompletes.opens
      hcompletes.closes hincoming
    rw [← run_bind_ok hresult, ← batchOutcome_eq, hcalm] at hsend
    exact hsend

/-- A batch does what its outcome takes, and then only looks at the outcome. -/
theorem run_batch (points : List Point) (w : World) :
    (batch points).run w
      = (((batchOutcome points).run w).1 >>= BatchOutcome.check,
          ((batchOutcome points).run w).2) := by
  rw [batch, run_bind]
  rcases ((batchOutcome points).run w).1 with e | o <;> rfl

theorem traffic_batch (points : List Point) (w : World) :
    (batch points).traffic w = (batchOutcome points).traffic w := by
  rw [batch]
  rcases hresult : ((batchOutcome points).run w).1 with e | o
  · rw [traffic_bind_error hresult]
  · rw [traffic_bind_ok hresult, traffic_ofExcept, List.append_nil]

end Client

/-- The outcome of a batch is without errors exactly if the reply to the dot counts none. -/
theorem WireReply.isOk_outcome {r : WireReply} (h : 0 ≤ r.code) :
    r.outcome.isOk ↔ r.code = 0 := by
  have hlength : r.body.length = r.code.toNat := r.body_length
  rw [outcome, BatchOutcome.isOk, List.isEmpty_iff, List.map_eq_nil_iff,
    ← List.length_eq_zero_iff, hlength]
  omega

theorem WireReply.check_outcome {r : WireReply} (h : 0 ≤ r.code) :
    r.outcome.check = if r.code = 0 then .ok ()
      else .error (.rejected r.text (r.body.map String.ofList)) := by
  rw [BatchOutcome.check]
  exact if_congr (r.isOk_outcome h) rfl rfl

/-- How a batch of points goes, whatever fails and whatever the daemon answers. -/
structure BatchDialogue (points : List Point) (w : World) : Prop where
  /-- What was sent at any time are lines of the batch, whole and from the first one on. -/
  sends : ∀ past, past <+: (Client.batchOutcome points).traffic w →
    past.flatMap Event.sent <+: Point.batchLines points w.clock
  sent : ((Client.batchOutcome points).run w).2.sent
    = w.sent ++ ((Client.batchOutcome points).traffic w).flatMap Event.sent
  /-- Every line is handed over after all that must come before it. -/
  order : ∀ before line answer after,
    (Client.batchOutcome points).traffic w = before ++ ⟨.write line, answer⟩ :: after →
      ∃ lines, Point.linesFrom points w.clock = .ok lines ∧ BatchOrder lines before line
  /-- There is an outcome exactly if the batch goes through, and it is that of the last
  reply. -/
  outcome : ∀ o, ((Client.batchOutcome points).run w).1 = .ok o ↔
    ∃ opened closed, Completes points w opened closed ∧ o = closed.outcome
  /-- A batch of which the outcome is not asked for does the same. -/
  same : (Client.batch points).traffic w = (Client.batchOutcome points).traffic w ∧
    ((Client.batch points).run w).2 = ((Client.batchOutcome points).run w).2
  /-- It succeeds exactly if it goes through and no update was rejected. -/
  succeeds : ((Client.batch points).run w).1 = .ok () ↔
    ∃ opened closed, Completes points w opened closed ∧ closed.code = 0
  /-- If it goes through and updates were rejected, the error is what the last reply says. -/
  rejected : ∀ opened closed, Completes points w opened closed → closed.code ≠ 0 →
    ((Client.batch points).run w).1
      = .error (.rejected closed.text (closed.body.map String.ofList))

/-- Every batch goes in this way. -/
theorem batch_dialogue (points : List Point) (w : World) : BatchDialogue points w where
  sends past hpast := by
    obtain ⟨later, hlater⟩ := hpast
    have hsent := Client.sent_batchOutcome points w
    rw [← hlater, List.flatMap_append] at hsent
    exact (List.prefix_append _ _).trans hsent
  sent := run_sent_traffic _ w
  order before line answer after h := by
    rcases hlines : Point.linesFrom points w.clock with e | lines
    · rw [Client.traffic_batchOutcome_error hlines] at h
      exact absurd h (by simp)
    · exact ⟨lines, rfl, Client.inOrder_batchOutcome hlines h⟩
  outcome _ := Client.run_batchOutcome_eq_ok
  same := ⟨Client.traffic_batch points w, congrArg Prod.snd (Client.run_batch points w)⟩
  succeeds := by
    rw [Client.run_batch, Result.bind_eq_ok]
    constructor
    · rintro ⟨o, ho, hcheck⟩
      obtain ⟨opened, closed, hcompletes, rfl⟩ := Client.run_batchOutcome_eq_ok.1 ho
      refine ⟨opened, closed, hcompletes, ?_⟩
      by_contra hcode
      rw [WireReply.check_outcome hcompletes.closes, if_neg hcode] at hcheck
      cases hcheck
    · rintro ⟨opened, closed, hcompletes, hcode⟩
      refine ⟨closed.outcome, Client.run_batchOutcome_eq_ok.2 ⟨_, _, hcompletes, rfl⟩, ?_⟩
      rw [WireReply.check_outcome hcompletes.closes, if_pos hcode]
  rejected opened closed hcompletes hcode := by
    have houtcome := Client.run_batchOutcome_eq_ok.2 ⟨opened, closed, hcompletes, rfl⟩
    rw [Client.run_batch, houtcome]
    exact (WireReply.check_outcome hcompletes.closes).trans (if_neg hcode)

end RrdCache
