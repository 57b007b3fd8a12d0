/-
RrdCache/Proofs/Session/Updates.lean

A batch is its updates.  A batch writes all its points down before it sends anything, while
updates that are sent one by one are written down, sent and answered in turn.  Both take
the readings of the clock in the same order, and so they agree in what they send, in the
first point that has no line, and in where they leave the clock, whatever the daemon answers
to the updates.

Main result (`batch_like_updates`).
-/
import RrdCache.Proofs.Dialogue.Spares
import RrdCache.Proofs.Request.Fields
import RrdCache.Proofs.Session.Batch
import RrdCache.Proofs.Session.Lines

namespace RrdCache

open Dialogue

/-! ### Surroundings that let lines through -/

namespace World

/-- No write fails, and no wait after one. -/
def Delivers (w : World) : Prop :=
  ∀ p ∈ w.faults, p.operation ≠ .write ∧ p.operation ≠ .drain

/-- The next reply is this one, and no fault is planned for the reads of its lines. -/
structure Offers (w : World) (r : WireReply) : Prop where
  incoming : r.bytes <+: w.incoming
  spares : w.Spares .read (r.body.length + 1)

variable {w : World}

theorem Delivers.planned? (hw : w.Delivers) {op : Operation} (hop : op = .write ∨ op = .drain)
    (n : Nat) : w.planned? op n = none := by
  rw [World.planned?, Option.map_eq_none_iff, List.find?_eq_none]
  intro p hp
  obtain ⟨hwrite, hdrain⟩ := hw p hp
  rcases hop with rfl | rfl
  · simp [hwrite]
  · simp [hdrain]

theorem Delivers.run {α : Type} (hw : w.Delivers) (d : Dialogue α) : (d.run w).2.Delivers := by
  rw [Delivers, run_faults]
  exact hw

end World

/-- What was written before a part that writes nothing, whatever comes of that part. -/
theorem Writes.sent_bind {α β : Type} {d : Dialogue α} {f : α → Dialogue β} {lines : List String}
    (hd : Writes d lines) (hf : ∀ a, Writes (f a) []) {w : World} {a : α}
    (h : (d.run w).1 = .ok a) : ((d >>= f).run w).2.sent = w.sent ++ lines := by
  obtain ⟨sent, -, hsent, hall⟩ := hd w
  obtain ⟨sent', hprefix, hsent', -⟩ := hf a (d.run w).2
  obtain rfl := List.prefix_nil.1 hprefix
  rw [run_bind_ok h, hsent', hsent, hall a h, List.append_nil]

namespace Client

variable {w : World}

theorem run_writeLine_of_delivers (hw : w.Delivers) (line : String) :
    ((writeLine line).run w).1 = .ok () := by
  have hlogged : World.Delivers { w with
    log := w.log ++ [⟨.debug, .exchange, "send " ++ quoted line⟩] } := hw
  have hwritten : ∀ v : World, v.Delivers → (v.answer (.write line)).1 = .ok () := by
    intro v hv
    rw [World.answer, World.use_of_none _ (hv.planned? (.inl rfl) _)]
  have hdrained : ∀ v : World, v.Delivers → (v.answer .drain).1 = .ok () := by
    intro v hv
    rw [World.answer, World.use_of_none _ (hv.planned? (.inr rfl) _)]
  have hafter := hlogged.run (perform (.write line))
  rw [run_perform] at hafter
  rw [writeLine, run_bind_ok rfl, run_bind_ok rfl, run_record, run_perform, hwritten _ hlogged]
  rw [run_bind_ok rfl, run_bind_ok rfl]
  simp [hdrained _ hafter, Except.mapError]

theorem run_writeLines_of_delivers (hw : w.Delivers) (lines : List String) :
    ((writeLines lines).run w).1 = .ok () := by
  induction lines generalizing w with
  | nil => rfl
  | cons line lines ih =>
    rw [writeLines, run_bind_ok (run_writeLine_of_delivers hw line)]
    exact ih (hw.run _)

theorem countP_readEvents (lines : List (List Char)) (op : Operation) :
    ((readEvents lines).countP fun e => e.operation? = some op)
      = if op = .read then lines.length else 0 := by
  induction lines with
  | nil => simp
  | cons line lines ih =>
    rw [readEvents_cons, List.countP_cons, ih]
    cases op <;> simp [Event.operation?]

/-- A line that gets through is answered, if the next reply can be read and accepts it; then the
bytes behind the reply are left, and each of its lines took one read. -/
theorem run_exchange_of_spares {r : WireReply} {rest : List UInt8} (hcode : 0 ≤ r.code)
    (hin : w.incoming = r.bytes ++ rest) (hwrite : w.Spares .write 1) (hdrain : w.Spares .drain 1)
    (hread : w.Spares .read (r.body.length + 1)) (line : String) :
    ((exchange line).run w).1 = .ok ⟨r.text, r.lines⟩ ∧
      ((exchange line).run w).2.incoming = rest ∧
      ((exchange line).run w).2.uses .read = w.uses .read + (r.body.length + 1) := by
  -- without a plan of faults the reply is read, and only its lines are
  obtain ⟨hcalm, hrest⟩ := run_exchange (w := w.calm) rfl line r hin
  rw [WireReply.answer, if_neg (Int.not_lt.2 hcode)] at hcalm
  obtain ⟨r', -, hreply, htraffic⟩ := run_exchange_ok hcalm
  have hlines : r'.body.length = r.body.length := by
    have := congrArg (List.length ∘ Reply.lines) hreply
    simpa [WireReply.lines] using this.symm
  have huses : ∀ op, ((exchange line).traffic w.calm).countP (fun e => e.operation? = some op)
      = (delivered line).countP (fun e => e.operation? = some op)
        + if op = .read then r.body.length + 1 else 0 := by
    intro op
    rw [htraffic, List.countP_append, WireReply.received, countP_readEvents, List.length_cons,
      hlines]
  have hspares : ∀ op, w.Spares op
      (((exchange line).traffic w.calm).countP fun e => e.operation? = some op) := by
    intro op
    rw [huses]
    cases op with
    | write => exact hwrite.mono (by simp [delivered, Event.operation?])
    | drain => exact hdrain.mono (by simp [delivered, Event.operation?])
    | read => exact hread.mono (by simp [delivered, Event.operation?])
    | waitClosed | dial => exact fun k hk => absurd hk (by simp [delivered, Event.operation?])
  have hrun := run_of_spares hspares
  have hreads := run_uses (exchange line) w.calm .read
  rw [← countP_traffic, huses, hrun] at hreads
  rw [hrun] at hcalm hrest
  exact ⟨hcalm, hrest, hreads.trans (by simp [delivered, Event.operation?, World.calm])⟩

theorem run_exchange_of_offers (hw : w.Delivers) {r : WireReply} (hcode : 0 ≤ r.code)
    (hr : w.Offers r) (line : String) :
    ((exchange line).run w).1 = .ok ⟨r.text, r.lines⟩ := by
  obtain ⟨rest, hin⟩ := hr.incoming
  exact (run_exchange_of_spares hcode hin.symm (fun _ _ => hw.planned? (.inl rfl) _)
    (fun _ _ => hw.planned? (.inr rfl) _) hr.spares line).1

/-- A batch that is written down does not look at the clock any more. -/
theorem asks_sendBatch (lines : List String) : (sendBatch lines).Asks (· ≠ .look) := by
  have hexchange (line : String) : (exchange line).Asks (· ≠ .look) :=
    asks_exchange (by simp) (by simp) (by simp) (by simp)
  apply (hexchange _).bind
  intro _
  apply (asks_writeLines (by simp) (by simp) (by simp)).bind
  intro _
  apply (hexchange _).bind
  intro _
  exact asks_announce (by simp) _ _

/-- A batch that the daemon opens sends all its lines, whatever the daemon answers to them. -/
theorem sent_sendBatch (hw : w.Delivers) {opened : WireReply} (hopens : 0 ≤ opened.code)
    (hr : w.Offers opened) (lines : List String) :
    ((sendBatch lines).run w).2.sent = w.sent ++ "BATCH\n" :: (lines ++ [".\n"]) := by
  -- all that is sent goes out before the last reply is read
  have hsplit : sendBatch lines = (exchange "BATCH\n" >>= fun _ => writeLines lines >>= fun _ =>
      writeLine ".\n") >>= fun _ => readReply >>= fun reply =>
        announce reply.outcome lines.length := by
    simp only [sendBatch, exchange, bind_assoc]
  have hwrites : Writes (exchange "BATCH\n" >>= fun _ => writeLines lines >>= fun _ =>
      writeLine ".\n") (["BATCH\n"] ++ (lines ++ [".\n"])) :=
    (writes_exchange _).bind fun _ => (writes_writeLines lines).bind fun _ => writes_writeLine _
  have hopened := run_exchange_of_offers hw hopens hr "BATCH\n"
  have hlines := run_writeLines_of_delivers (hw.run (exchange "BATCH\n")) lines
  rw [hsplit]
  apply hwrites.sent_bind
  · intro _
    exact writes_readReply.bind_nil fun _ => .of_asks (asks_announce (by simp) _ _)
  · rw [run_bind_ok hopened, run_bind_ok hlines]
    exact run_writeLine_of_delivers ((hw.run _).run _) _

end Client

/-! ### Points one by one -/

namespace Point

/-- The step that sends a point alone. -/
def alone (p : Point) : Step :=
  .call (.update p.path.text (p.timestamp.elim .null fun t => .int t) p.values)

/-- The clock after the lines of points were written down. -/
def clockAfterAll (points : List Point) (clock : Clock) : Clock :=
  points.foldl (fun clock p => p.clockAfter clock) clock

/-- The fields of a point make it again. -/
theorem ofParts_fields (p : Point) :
    ofParts p.path.text (p.timestamp.elim .null fun t => .int t) p.values = .ok p := by
  have hpath : Identifier.ofPath p.path.text = .ok p.path := Identifier.ofString_eq_ok.2 rfl
  have htimestamp : checkTimestamp (p.timestamp.elim .null fun t => .int t)
      = .ok p.timestamp := by
    rcases p.timestamp with - | t
    · rfl
    · simp [checkTimestamp, Scalar.epoch?]
  rw [ofParts, dif_neg p.values_ne_nil, htimestamp, hpath]
  rfl

/-- Alone a point is written down and then sent. -/
theorem alone_dialogue (p : Point) :
    p.alone.dialogue = Client.updateLine p >>= fun line =>
      Course.delivering [line] Reply.nothing := by
  rw [alone, Step.dialogue, Call.dialogue_phases, Call.course, ofParts_fields, Course.encode,
    Course.pointLine, ofExcept_ok_bind, bind_map_left]
  rfl

end Point

section Updates

variable {v : World}

/-- Alone a point uses the clock as in a batch, whatever comes of it. -/
theorem clock_alone (p : Point) (v : World) :
    (p.alone.dialogue.run v).2.clock = p.clockAfter v.clock := by
  have hdelivering : ∀ line, (Course.delivering [line] Reply.nothing).Asks (· ≠ .look) :=
    fun line => Course.asks_delivering (by simp) (by simp) (by simp) (by simp) _
  rw [Point.alone_dialogue, run_bind, Client.run_updateLine]
  rcases p.lineFrom v.clock with e | line
  · rfl
  · exact run_clock (hdelivering line) _

/-- Alone a point without a line fails as in a batch. -/
theorem run_alone_error {p : Point} {e : Error} (h : p.lineFrom v.clock = .error e) :
    (p.alone.dialogue.run v).1 = .error e := by
  rw [Point.alone_dialogue, run_bind, Client.run_updateLine, h]

/-- Alone a point sends its line, whatever the daemon answers. -/
theorem sent_alone {p : Point} (hv : v.Delivers) {line : String}
    (h : p.lineFrom v.clock = .ok line) :
    (p.alone.dialogue.run v).2.sent = v.sent ++ [line] := by
  have hwritten : ((Client.writeLines [line]).run (v.withClock (p.clockAfter v.clock))).1
      = .ok () :=
    Client.run_writeLines_of_delivers (w := v.withClock (p.clockAfter v.clock)) hv [line]
  rw [Point.alone_dialogue, run_bind, Client.run_updateLine, h]
  apply (Client.writes_writeLines [line]).sent_bind _ hwritten
  intro _
  exact Client.writes_readReply.bind_nil fun _ => .of_asks (asks_ofExcept _)

theorem clock_session (points : List Point) (v : World) :
    (session (points.map Point.alone) v).clock = Point.clockAfterAll points v.clock := by
  induction points generalizing v with
  | nil => rfl
  | cons p points ih =>
    rw [List.map_cons, session, ih, clock_alone]
    rfl

/-- Points that are sent one by one send their lines, whatever the daemon answers. -/
theorem sent_session {points : List Point} {lines : List String} (hv : v.Delivers)
    (h : Point.linesFrom points v.clock = .ok lines) :
    (session (points.map Point.alone) v).sent = v.sent ++ lines := by
  induction points generalizing v lines with
  | nil =>
    obtain rfl := Except.ok.inj h
    exact (List.append_nil _).symm
  | cons p points ih =>
    obtain ⟨line, hline, h⟩ := Result.bind_eq_ok.1 h
    obtain ⟨later, hlater, h⟩ := Result.bind_eq_ok.1 h
    obtain rfl := Except.ok.inj h
    rw [← clock_alone] at hlater
    rw [List.map_cons, session, ih (hv.run _) hlater, sent_alone hv hline, List.append_assoc]
    rfl

end Updates

/-! ### Points at once -/

namespace Client

variable {w : World}

/-- Points that all have lines leave the clock where the last of them does. -/
theorem run_updateLines_ok {points : List Point} {lines : List String}
    (h : Point.linesFrom points w.clock = .ok lines) :
    (updateLines points).run w
      = (.ok lines, w.withClock (Point.clockAfterAll points w.clock)) := by
  induction points generalizing w lines with
  | nil =>
    obtain rfl := Except.ok.inj h
    rfl
  | cons p points ih =>
    obtain ⟨line, hline, h⟩ := Result.bind_eq_ok.1 h
    obtain ⟨later, hlater, h⟩ := Result.bind_eq_ok.1 h
    obtain rfl := Except.ok.inj h
    have hrest := ih (w := w.withClock (p.clockAfter w.clock)) hlater
    rw [updateLines, run_bind, run_updateLine, hline]
    dsimp only
    rw [run_bind, hrest]
    rfl

/-- The first point that has no line ends the writing down, and its look at the clock is the
last one. -/
theorem run_updateLines_error {done : List Point} {p : Point} {lines : List String} {e : Error}
    (h : Point.linesFrom done w.clock = .ok lines) (rest : List Point)
    (hp : p.lineFrom (Point.clockAfterAll done w.clock) = .error e) :
    (updateLines (done ++ p :: rest)).run w
      = (.error e, w.withClock (Point.clockAfterAll (done ++ [p]) w.clock)) := by
  induction done generalizing w lines with
  | nil =>
    have hp : p.lineFrom w.clock = .error e := hp
    rw [List.nil_append, updateLines, run_bind, run_updateLine, hp]
    rfl
  | cons q done ih =>
    obtain ⟨line, hline, h⟩ := Result.bind_eq_ok.1 h
    obtain ⟨later, hlater, -⟩ := Result.bind_eq_ok.1 h
    have hrest := ih (w := w.withClock (q.clockAfter w.clock)) hlater hp
    rw [List.cons_append, updateLines, run_bind, run_updateLine, hline]
    dsimp only
    rw [run_bind, hrest]
    rfl

end Client

/-! ### Both ways -/

/-- A batch of points that runs in `w`, beside the updates of its points that run one after
the other in `v`. -/
structure BatchLikeUpdates (points : List Point) (batch : Call) (w v : World) : Prop where
  /-- If all points have lines and the daemon opens the batch, then between its two lines the
  batch sends what the updates send, and it leaves the clock where they do. -/
  sends : (∃ lines, Point.linesFrom points w.clock = .ok lines) →
    ∀ opened : WireReply, 0 ≤ opened.code → w.Offers opened →
      ∃ sent, (session (points.map Point.alone) v).sent = v.sent ++ sent ∧
        (batch.dialogue.run w).2.sent = w.sent ++ "BATCH\n" :: (sent ++ [".\n"]) ∧
        (batch.dialogue.run w).2.clock = (session (points.map Point.alone) v).clock
  /-- The first point that has no line fails alone as it does in the batch, which sends nothing
  and leaves the clock where the update of that point does. -/
  fails : ∀ done p rest lines e, points = done ++ p :: rest →
    Point.linesFrom done w.clock = .ok lines →
    p.lineFrom (Point.clockAfterAll done w.clock) = .error e →
      (p.alone.dialogue.run (session (done.map Point.alone) v)).1 = .error e ∧
        (batch.dialogue.run w).1 = .error e ∧ (batch.dialogue.run w).2.sent = w.sent ∧
        (batch.dialogue.run w).2.clock = (session ((done ++ [p]).map Point.alone) v).clock

/-- A batch whose outcome is asked for does what the updates of its points do. -/
theorem batchOutcome_like_updates (points : List Point) {w v : World} (hw : w.Delivers)
    (hv : v.Delivers) (hclock : v.clock = w.clock) :
    BatchLikeUpdates points (.batchOutcome points) w v where
  sends := by
    rintro ⟨lines, hlines⟩ opened hopens hoffers
    have hwritten := Client.run_updateLines_ok hlines
    have hresult : ((Client.updateLines points).run w).1 = .ok lines := by rw [hwritten]
    have hsent := Client.sent_sendBatch
      (w := w.withClock (Point.clockAfterAll points w.clock)) hw hopens
      ⟨hoffers.incoming, hoffers.spares⟩ lines
    have hlooks := Client.asks_sendBatch lines
    refine ⟨lines, sent_session hv (hclock ▸ hlines), ?_, ?_⟩
    · rw [Call.dialogue, run_map, Client.batchOutcome_eq, run_bind_ok hresult, hwritten, hsent]
      rfl
    · rw [Call.dialogue, run_map, Client.batchOutcome_eq, run_bind_ok hresult, hwritten,
        run_clock hlooks, clock_session, hclock]
      rfl
  fails := by
    rintro done p rest lines e rfl hdone hp
    have hwritten := Client.run_updateLines_error hdone rest hp
    have hresult : ((Client.updateLines (done ++ p :: rest)).run w).1 = .error e := by
      rw [hwritten]
    have hbatch : (Call.batchOutcome (done ++ p :: rest)).dialogue.run w
        = (.error e, w.withClock (Point.clockAfterAll (done ++ [p]) w.clock)) := by
      rw [Call.dialogue, run_map, Client.batchOutcome_eq, run_bind_error hresult, hwritten]
      rfl
    rw [hbatch, clock_session, hclock]
    refine ⟨run_alone_error ?_, rfl, rfl, rfl⟩
    rw [clock_session, hclock, hp]

/-- A batch, whether its outcome is asked for or not, does what the updates of its points do
one by one, whatever the daemon answers to those. -/
theorem batch_like_updates (points : List Point) {w v : World} (hw : w.Delivers)
    (hv : v.Delivers) (hclock : v.clock = w.clock) {batch : Call}
    (hbatch : batch = .batch points ∨ batch = .batchOutcome points) :
    BatchLikeUpdates points batch w v := by
  have houtcome := batchOutcome_like_updates points hw hv hclock
  rcases hbatch with rfl | rfl
  · have hworld : ((Call.batch points).dialogue.run w).2
        = ((Call.batchOutcome points).dialogue.run w).2 := by
      rw [Call.dialogue, Call.dialogue, silent, run_map, run_map, Client.run_batch]
    refine ⟨by rw [hworld]; exact houtcome.sends, ?_⟩
    intro done p rest lines e hpoints hdone hp
    obtain ⟨halone, herror, hsent, hafter⟩ := houtcome.fails done p rest lines e hpoints hdone hp
    refine ⟨halone, ?_, hworld ▸ hsent, hworld ▸ hafter⟩
    rw [Call.dialogue, run_map] at herror
    rw [Call.dialogue, silent, run_map, Client.run_batch]
    rcases hresult : ((Client.batchOutcome points).run w).1 with e' | o
    · rw [hresult] at herror
      obtain rfl := Except.error.inj herror
      rfl
    · rw [hresult] at herror
      cases herror
  · exact houtcome

/-- One value for a database, at the time of sending. -/
def Point.now (value : Scalar) : Point where
  path := ⟨"load", by decide⟩
  timestamp := none
  values := [value]
  values_ne_nil := List.cons_ne_nil _ _

/-- Surroundings with a clock that ticks once, in which the second read fails. -/
def World.ticking (incoming : List UInt8) : World where
  incoming := incoming
  clock := ⟨.ok (.int 1000), [.ok (.int 1001)]⟩
  faults := [⟨.read, 2, .system "reset"⟩]

/-- Two updates, the first of which is refused and the second of which gets no reply, send what
the batch of the two sends that is never answered to the end.  With a word in place of the
second value nothing is sent, and the word is the error. -/
theorem batch_like_updates_ticking :
    (∃ sent, (session ([.now (.int 1), .now (.int 2)].map Point.alone)
          (.ticking WireReply.noSuchFile.bytes)).sent = sent ∧
        ((Call.batch [.now (.int 1), .now (.int 2)]).dialogue.run
          (.ticking WireReply.pong.bytes)).2.sent = "BATCH\n" :: (sent ++ [".\n"])) ∧
      ((Call.batch [.now (.int 1), .now (.text "x")]).dialogue.run
          (.ticking WireReply.pong.bytes)).1 = .error (.notANumber (.text "x")) := by
  have hdelivers (bytes : List UInt8) : (World.ticking bytes).Delivers := by
    intro p hp
    obtain rfl := List.mem_singleton.1 hp
    decide
  have hlike (points : List Point) := batch_like_updates points
    (hdelivers WireReply.pong.bytes) (hdelivers WireReply.noSuchFile.bytes) rfl (.inl rfl)
  have hoffers : (World.ticking WireReply.pong.bytes).Offers .pong :=
    ⟨List.prefix_rfl, by rw [World.Spares]; decide⟩
  have hlines : Point.linesFrom [.now (.int 1), .now (.int 2)] ⟨.ok (.int 1000), [.ok (.int 1001)]⟩
      = .ok ["UPDATE load.rrd 1000:1\n", "UPDATE load.rrd 1001:2\n"] := by decide +kernel
  have hline : Point.linesFrom [.now (.int 1)] ⟨.ok (.int 1000), [.ok (.int 1001)]⟩
      = .ok ["UPDATE load.rrd 1000:1\n"] := by decide +kernel
  constructor
  · obtain ⟨sent, hsession, hbatch, -⟩ := (hlike _).sends ⟨_, hlines⟩ .pong (by decide) hoffers
    exact ⟨sent, hsession, hbatch⟩
  · have hfails := (hlike _).fails [.now (.int 1)] (.now (.text "x")) []
      _ (.notANumber (.text "x")) rfl hline (by decide +kernel)
    exact hfails.2.1

end RrdCache
