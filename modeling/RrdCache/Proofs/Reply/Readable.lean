/-
RrdCache/Proofs/Reply/Readable.lean

What is read as a reply is one.  If a client gets a reply, whatever the daemon sends and
whatever faults are planned, then what it read is a well-formed reply that accepts the
request: its status line and exactly the lines that this line declares, each of them whole.

Main result (`run_readReply_ok`).  It is the converse of `run_readReply`, which says that
every well-formed reply is read.
-/
import RrdCache.Proofs.Dialogue.Traffic
import RrdCache.Proofs.Reply.Wire
import RrdCache.Proofs.Result

namespace RrdCache

open Dialogue

/-! ### Lines -/

/-- Bytes that are taken as a line are those of a line. -/
theorem lineOfBytes_eq_ok {bytes : List UInt8} {line : String}
    (h : lineOfBytes bytes = .ok line) :
    ∃ body, line = String.ofList (body ++ ['\n']) ∧ bytes = lineBytes body := by
  rw [lineOfBytes] at h
  split at h
  · cases h
  · rename_i hlast
    obtain ⟨front, hfront⟩ := List.getLast?_eq_some_iff.1 (not_not.1 hlast)
    split at h
    · rename_i text htext
      obtain rfl := Except.ok.inj h
      have hbytes := eq_utf8_of_decodeUtf8? htext
      obtain ⟨body, hbody, hutf8⟩ := utf8_eq_append_lf (hbytes.symm.trans hfront)
      refine ⟨body, ?_, ?_⟩
      · rw [← hbody, String.ofList_toList]
      · rw [hfront, lineBytes, hutf8]
    · cases h

/-- What happens when the bytes of lines are read. -/
def readEvents (lines : List (List Char)) : List Event :=
  lines.map fun line => ⟨.readLine, .ok (lineBytes line)⟩

@[simp] theorem readEvents_nil : readEvents [] = [] := rfl

@[simp] theorem readEvents_cons (line : List Char) (lines : List (List Char)) :
    readEvents (line :: lines) = ⟨.readLine, .ok (lineBytes line)⟩ :: readEvents lines := rfl

theorem received_readEvents (lines : List (List Char)) :
    (readEvents lines).flatMap Event.received = lines.flatMap lineBytes := by
  rw [readEvents, List.flatMap_map]
  rfl

namespace Client

variable {w : World}

/-- A line that is read is the next one, and it is whole. -/
theorem run_readLine_ok {line : String} (h : (readLine.run w).1 = .ok line) :
    ∃ body, '\n' ∉ body ∧ line = String.ofList (body ++ ['\n']) ∧
      readLine.traffic w = readEvents [body] := by
  have htraffic : readLine.traffic w = [w.event .readLine] := by
    rw [readLine, traffic_bind_ok rfl, traffic_perform rfl]
    rcases (w.answer .readLine).1 with f | bytes <;> rfl
  rw [htraffic, World.event]
  rw [readLine, run_bind_ok rfl, run_perform] at h
  rcases hf : w.planned? .read (w.uses .read + 1) with - | f
  · rw [World.answer_readLine_of_none hf] at h ⊢
    obtain ⟨body, hline, hbytes⟩ := lineOfBytes_eq_ok h
    refine ⟨body, ?_, hline, by rw [hbytes]; rfl⟩
    -- the line was cut at the first line feed, so that no other one stands in it
    intro hlf
    rcases cutLine_cases w.incoming with ⟨front, hfront, hcut⟩ | ⟨hnone, hcut⟩
    · rw [hbytes, lineBytes] at hcut
      have hutf8 := List.append_cancel_right hcut
      exact hfront (hutf8 ▸ lf_mem_utf8.2 hlf)
    · rw [hcut] at hbytes
      have hincoming : w.incoming = lineBytes body := hbytes
      exact hnone (by rw [hincoming]; simp [lineBytes])
  · rw [World.answer_readLine_of_fault hf] at h
    cases h

/-- Lines that are read are the next ones, and they are whole. -/
theorem run_readLines_ok {n : Nat} {lines : List String}
    (h : ((readLines n).run w).1 = .ok lines) :
    ∃ bodies : List (List Char), bodies.length = n ∧ (∀ body ∈ bodies, '\n' ∉ body) ∧
      lines = bodies.map (fun body => String.ofList (body ++ ['\n'])) ∧
      (readLines n).traffic w = readEvents bodies := by
  induction n generalizing w lines with
  | zero =>
    obtain rfl := Except.ok.inj h
    exact ⟨[], rfl, by simp, rfl, rfl⟩
  | succ n ih =>
    obtain ⟨line, hline, h⟩ := run_bind_eq_ok.1 h
    obtain ⟨later, hlater, h⟩ := run_bind_eq_ok.1 h
    obtain rfl := Except.ok.inj h
    obtain ⟨body, hbody, rfl, hfirst⟩ := run_readLine_ok hline
    obtain ⟨bodies, hlength, hbodies, rfl, hrest⟩ := ih hlater
    refine ⟨body :: bodies, congrArg (· + 1) hlength,
      List.forall_mem_cons.2 ⟨hbody, hbodies⟩, rfl, ?_⟩
    rw [readLines, traffic_bind_ok hline, traffic_bind_ok hlater, hfirst, hrest]
    exact congrArg (_ :: ·) (List.append_nil _)

end Client

/-! ### Status lines -/

/-- The parts of a status line, from its front. -/
theorem Status.split?_eq_some {s number message : List Char}
    (h : split? s = some (number, message)) :
    ∃ sign digits gap, number = sign ++ digits ∧
      s = sign ++ digits ++ gap ++ message ++ ['\n'] ∧
      (sign = [] ∨ sign = ['+'] ∨ sign = ['-']) ∧ (digits ≠ [] ∧ ∀ c ∈ digits, c.isDigit) ∧
      (gap ≠ [] ∧ ∀ c ∈ gap, isGap c) ∧ Shape.IsText message ∧
      message.dropWhile isGap = message := by
  simp only [split?, Option.bind_eq_bind, Option.bind_eq_some_iff] at h
  obtain ⟨⟨number, afterNumber⟩, hnumber, afterGap, hgap, message, hmessage, hpair⟩ := h
  obtain ⟨rfl, rfl⟩ := Prod.mk.inj (Option.some.inj hpair)
  obtain ⟨sign, digits, rfl, rfl, hsign, hdigits⟩ := Shape.signedDigits?_eq_some hnumber
  obtain ⟨gap, rfl, hne, hisGap, hends⟩ := Shape.gap?_eq_some hgap
  obtain ⟨rfl, hisText⟩ := Shape.text?_eq_some_iff.1 hmessage
  refine ⟨sign, digits, gap, rfl, by simp, hsign, hdigits, ⟨hne, hisGap⟩, hisText, ?_⟩
  -- the gap was taken off as far as it went, so that the message begins without one
  cases message with
  | nil => rfl
  | cons c message => exact List.dropWhile_cons_of_neg (by simp [Scan.ends_cons.1 hends])

theorem Status.ofCode_eq_accepted {code : Int} {said message : String} {pending : Nat} :
    ofCode code said = .accepted message pending ↔
      0 ≤ code ∧ said = message ∧ code.toNat = pending := by
  rw [ofCode]
  split
  · rename_i hnegative
    simp [Int.not_le.2 hnegative]
  · rename_i hnonneg
    simp [Int.not_lt.1 hnonneg]

/-- A status line that accepts a request, and the lines that it declares, are a reply. -/
theorem WireReply.exists_of_status {status : List Char} {message : String} {pending : Nat}
    (h : Status.ofLine (String.ofList (status ++ ['\n'])) = .ok (.accepted message pending))
    {body : List (List Char)} (hlength : body.length = pending)
    (hbody : ∀ line ∈ body, '\n' ∉ line) :
    ∃ r : WireReply, r.status = status ∧ r.body = body ∧ r.text = message ∧ 0 ≤ r.code := by
  rw [Status.ofLine, String.toList_ofList] at h
  rcases hsplit : Status.split? (status ++ ['\n']) with - | ⟨number, said⟩
  · simp [hsplit] at h
  simp only [hsplit] at h
  obtain ⟨code, hcode, h⟩ := Result.bind_eq_ok.1 h
  obtain ⟨sign, digits, gap, rfl, hline, hsign, hdigits, hgap, hsaid, hfront⟩ :=
    Status.split?_eq_some hsplit
  obtain ⟨hlimit, rfl⟩ := (Numeral.signedValue_eq_ok_iff hsign hdigits).1
    (Result.liftNumeral_eq_ok.1 hcode)
  obtain ⟨hnonneg, hmessage, hpending⟩ := Status.ofCode_eq_accepted.1 (Except.ok.inj h)
  refine ⟨⟨sign, digits, gap, said, body, hsign, hdigits.1, hdigits.2, hlimit, hgap.1, hgap.2,
    hsaid, hbody, hlength.trans hpending.symm⟩, (List.append_cancel_right hline).symm, rfl, ?_,
    hnonneg⟩
  rw [WireReply.text, hfront, hmessage]

/-! ### Replies -/

namespace WireReply

/-- What happens when a reply is read: its lines are read one after the other. -/
def received (r : WireReply) : List Event :=
  readEvents (r.status :: r.body)

theorem received_bytes (r : WireReply) : r.received.flatMap Event.received = r.bytes :=
  received_readEvents _

end WireReply

namespace Client

variable {w : World}

theorem run_readStatus_ok {message : String} {pending : Nat}
    (h : (readStatus.run w).1 = .ok (message, pending)) :
    ∃ status, Status.ofLine (String.ofList (status ++ ['\n'])) = .ok (.accepted message pending) ∧
      readStatus.traffic w = readEvents [status] := by
  rw [readStatus, run_andThen] at h
  rw [readStatus, traffic_andThen]
  rcases hline : (readLine.run w).1 with e | line
  · rw [hline] at h
    cases h
  rw [hline] at h
  obtain ⟨status, -, rfl, hread⟩ := run_readLine_ok hline
  obtain ⟨s, hs, h⟩ := run_bind_eq_ok.1 h
  cases s with
  | refused code m => cases h
  | accepted m n =>
    obtain ⟨rfl, rfl⟩ := Prod.mk.inj (Except.ok.inj h)
    refine ⟨status, hs, ?_⟩
    dsimp only
    rw [hread, traffic_bind_ok hs]
    rfl

/-- A reply that a client gets is a well-formed one, and it was read line by line. -/
theorem run_readReply_ok {reply : Reply} (h : (readReply.run w).1 = .ok reply) :
    ∃ r : WireReply, 0 ≤ r.code ∧ reply = ⟨r.text, r.lines⟩ ∧
      readReply.traffic w = r.received := by
  obtain ⟨⟨message, pending⟩, hstatus, h⟩ := run_bind_eq_ok.1 h
  obtain ⟨lines, hlines, h⟩ := run_bind_eq_ok.1 h
  obtain rfl := Except.ok.inj h
  obtain ⟨status, hline, hfirst⟩ := run_readStatus_ok hstatus
  obtain ⟨body, hlength, hbody, rfl, hrest⟩ := run_readLines_ok hlines
  obtain ⟨r, rfl, rfl, rfl, hcode⟩ := WireReply.exists_of_status hline hlength hbody
  refine ⟨r, hcode, rfl, ?_⟩
  rw [readReply, traffic_bind_ok hstatus, traffic_bind_ok hlines, hfirst, hrest]
  simp [WireReply.received]

end Client

end RrdCache
