/-
RrdCache/Proofs/Session/Bodies.lean

Calls that ask for lines.  Such a call reads its whole reply before it looks at a single line, so
that the lines are taken off the connection whether they can be read or not, and nothing behind
them is.  What the call returns is made of exactly these lines.

Main result (`Call.returns_body`).
-/
import RrdCache.Proofs.Reply.Bodies
import RrdCache.Proofs.Session.Updates

namespace RrdCache

open Dialogue

/-- The next reply is this one, with these bytes behind it, and no fault is planned for sending
a line and reading the reply. -/
structure World.Serves (w : World) (r : WireReply) (rest : List UInt8) : Prop where
  incoming : w.incoming = r.bytes ++ rest
  write : w.Spares .write 1
  drain : w.Spares .drain 1
  read : w.Spares .read (r.body.length + 1)

namespace Call

variable {c : Call} {request : Request} {decode : Reply → Except Error Outcome} {w : World}

/-- A call of one request sends its line, if it has one. -/
theorem dialogue_of_written (hc : c.course = .order request decode)
    (hvalid : ∃ lines, (c.written w.clock).1 = .ok lines) :
    ∃ line, c.dialogue = Client.exchange line >>= fun reply => ofExcept (decode reply) := by
  obtain ⟨lines, hlines⟩ := hvalid
  rw [written_eq, hc, Course.encode, run_map, run_ofExcept] at hlines
  obtain ⟨line, hline, -⟩ := Result.map_eq_ok.1 hlines
  have hline : request.line = .ok line := hline
  refine ⟨line, ?_⟩
  rw [dialogue_eq, hc, Course.dialogue, Course.exchanging, hline]
  rfl

/-- A call of one request reads an accepting reply to its end and no further, and only then
looks at it. -/
theorem run_of_serves (hc : c.course = .order request decode) {r : WireReply} (hcode : 0 ≤ r.code)
    {rest : List UInt8} (hw : w.Serves r rest)
    (hvalid : ∃ lines, (c.written w.clock).1 = .ok lines) :
    (c.dialogue.run w).1 = decode ⟨r.text, r.lines⟩ ∧ (c.dialogue.run w).2.incoming = rest ∧
      (c.dialogue.run w).2.uses .read = w.uses .read + (r.body.length + 1) := by
  obtain ⟨line, hdialogue⟩ := dialogue_of_written hc hvalid
  obtain ⟨hreply, hrest, hreads⟩ :=
    Client.run_exchange_of_spares hcode hw.incoming hw.write hw.drain hw.read line
  rw [hdialogue, run_bind_ok hreply]
  exact ⟨rfl, hrest, hreads⟩

/-- A call that asks for lines makes its outcome of the lines of the reply, neither lost nor
altered nor reordered.  Whatever stands in the lines, and whether they can be read or not, all of
them are taken off the connection and nothing behind them is. -/
theorem returns_body (hc : c.AsksForLines) {r : WireReply} (hcode : 0 ≤ r.code)
    {rest : List UInt8} (hw : w.Serves r rest)
    (hvalid : ∃ lines, (c.written w.clock).1 = .ok lines) :
    ReturnsBody r c (c.dialogue.run w).1 ∧ (c.dialogue.run w).2.incoming = rest ∧
      (c.dialogue.run w).2.uses .read = w.uses .read + (r.body.length + 1) := by
  obtain ⟨request, decode, hcourse, hreturns⟩ := returnsBody_decode hc
  obtain ⟨hresult, hrest, hreads⟩ := run_of_serves hcourse hcode hw hvalid
  rw [hresult]
  exact ⟨hreturns r, hrest, hreads⟩

end Call

/-- A statistic, an empty line, and a line of a carriage return, a line separator and a null
character. -/
def mixedLines : List (List Char) :=
  ["A: 1".toList, [], ['\r', Char.ofNat 0x2028, Char.ofNat 0]]

theorem lf_not_mem_mixedLines : ∀ line ∈ mixedLines, '\n' ∉ line := by
  decide

/-- A reply with these lines. -/
def WireReply.mixed : WireReply :=
  { WireReply.pong with
    digits := ['3']
    message := "ok".toList
    body := mixedLines
    digits_ne_nil := by decide
    digits_isDigit := List.all_eq_true.1 (by decide)
    digits_length := by decide
    message_isText := by decide
    body_lines := lf_not_mem_mixedLines
    body_length := by decide }

/-- Surroundings that offer this reply and one byte more, and fail to read after that. -/
def World.mixed : World where
  incoming := WireReply.mixed.bytes ++ [88]
  clock := .fixed (.int 0)
  faults := [⟨.read, 5, .system "reset"⟩]

/-- The lines are returned as texts, and they are no statistics; both calls leave the last
byte. -/
theorem returns_body_mixed :
    (∃ texts, ((Call.info "load").dialogue.run .mixed).1 = .ok (.texts texts) ∧
        IsBody WireReply.mixed.body texts) ∧
      ReturnsBody .mixed .stats (Call.stats.dialogue.run .mixed).1 ∧
      (Call.stats.dialogue.run .mixed).2.incoming = [88] := by
  have hserves : World.mixed.Serves .mixed [88] := by
    refine ⟨rfl, ?_, ?_, ?_⟩ <;> rw [World.Spares] <;> decide
  obtain ⟨hinfo, -, -⟩ := Call.returns_body (c := .info "load") trivial (by decide) hserves
    ⟨_, rfl⟩
  obtain ⟨hstats, hrest, -⟩ := Call.returns_body (c := .stats) trivial (by decide) hserves
    ⟨_, rfl⟩
  refine ⟨?_, hstats, hrest⟩
  generalize ((Call.info "load").dialogue.run .mixed).1 = result at hinfo
  cases hinfo with
  | info isBody => exact ⟨_, rfl, isBody⟩

end RrdCache
