/-
RrdCache/Proofs/Session/Lines.lean

What a session sends.  Whatever the arguments of its calls are and whatever faults strike,
each call of a session sends whole request lines only: those of the requests that the call
stands for, in order and from the first one on.  A request line is the tokens of its
template with single blanks between them, so that no argument can end a line, begin another
one or add a token to it.

Main result (`session_sent`).
-/
import RrdCache.Proofs.Client.Writes
import RrdCache.Proofs.Request.Template

namespace RrdCache

open Dialogue

/-! ### Request lines -/

/-- A line is that of a request, whole and alone. -/
structure Carries (r : Request) (line : String) : Prop where
  written : r.line = .ok line
  /-- Printable ASCII, and one line feed at the end. -/
  bytes : ∃ body, line.toUTF8.data.toList = body ++ [10] ∧ ∀ b ∈ body, 0x20 ≤ b ∧ b ≤ 0x7E
  /-- Cut at its blanks, the line gives the template back. -/
  tokens : ∃ body, line.toList = body ++ ['\n'] ∧
    body.splitOn ' ' = r.template.map String.toList
  graphic : ∀ t ∈ r.template, IsToken t

/-- Whatever its arguments are, a request that has a line has one that carries it. -/
theorem carries_of_line {r : Request} {line : String} (h : r.line = .ok line) :
    Carries r line := by
  obtain ⟨rfl, htokens⟩ := Request.line_eq h
  exact ⟨h, tokenLine_bytes htokens, tokenLine_split r.template_ne_nil htokens, htokens⟩

/-! ### The requests of a call -/

/-- The requests that a call stands for.  The times of its updates may be those of the clock. -/
inductive Course.Sends : Course → List Request → Prop
  | order (request : Request) (decode : Reply → Except Error Outcome) :
    Sends (.order request decode) [request]
  | update (point : Point) (time : Nat) : Sends (.update (.ok point)) [.update point time]
  | batch (points : List Point) (times : List Nat) (finish : BatchOutcome → Except Error Outcome)
      (length : times.length = points.length) :
    Sends (.batch points finish)
      (.command .batch :: (List.zipWith Request.update points times ++ [.command .batchEnd]))
  | leave : Sends .leave [.command .quit]
  | close : Sends .close []
  | pingAndClose : Sends .pingAndClose [.command .ping]

/-- The greatest number of lines that a call sends: one, and for a batch one for each update
and two around them. -/
def Course.lineLimit : Course → Nat
  | .batch points _ => points.length + 2
  | .close => 0
  | _ => 1

theorem Course.Sends.length_le {c : Course} {requests : List Request} (h : c.Sends requests) :
    requests.length ≤ c.lineLimit := by
  cases h with
  | batch points times finish hlength => simp [lineLimit, hlength]
  | order | update | leave | close | pingAndClose => exact Nat.le_refl _

/-- What a call may send: nothing, or the lines of the first ones of its requests. -/
structure Call.MaySend (c : Call) (lines : List String) : Prop where
  bounded : lines.length ≤ c.course.lineLimit
  requests : lines = [] ∨ ∃ requests, c.course.Sends requests ∧
    List.Forall₂ Carries (requests.take lines.length) lines

theorem updateLine_run {p : Point} {w : World} {line : String}
    (h : ((Client.updateLine p).run w).1 = .ok line) :
    ∃ time, (Request.update p time).line = .ok line := by
  obtain ⟨time, -, h⟩ := run_bind_eq_ok.1 h
  exact ⟨time, h⟩

theorem updateLines_run {points : List Point} {w : World} {lines : List String}
    (h : ((Client.updateLines points).run w).1 = .ok lines) :
    ∃ times : List Nat, times.length = points.length ∧
      List.Forall₂ (fun r l => r.line = .ok l) (List.zipWith Request.update points times)
        lines := by
  induction points generalizing w lines with
  | nil =>
    obtain rfl := Except.ok.inj h
    exact ⟨[], rfl, .nil⟩
  | cons p points ih =>
    obtain ⟨line, hline, h⟩ := run_bind_eq_ok.1 h
    obtain ⟨later, hlater, h⟩ := run_bind_eq_ok.1 h
    obtain rfl := Except.ok.inj h
    obtain ⟨time, htime⟩ := updateLine_run hline
    obtain ⟨times, hlength, htimes⟩ := ih hlater
    exact ⟨time :: times, by simp [hlength], .cons htime htimes⟩

/-- The lines that were written down are those of the call's requests. -/
theorem Course.encode_sends {c : Course} {w : World} {lines : List String}
    (h : (c.encode.run w).1 = .ok lines) :
    ∃ requests, c.Sends requests ∧
      List.Forall₂ (fun r l => r.line = .ok l) requests (c.wire lines) := by
  cases c with
  | order request decode =>
    rw [encode, run_map, run_ofExcept] at h
    obtain ⟨line, hline, rfl⟩ := Result.map_eq_ok.1 h
    exact ⟨[request], .order _ _, .cons hline .nil⟩
  | update point =>
    rw [encode, run_map] at h
    obtain ⟨line, hline, rfl⟩ := Result.map_eq_ok.1 h
    cases point with
    | error e => cases hline
    | ok p =>
      obtain ⟨time, htime⟩ := updateLine_run hline
      exact ⟨[.update p time], .update p time, .cons htime .nil⟩
  | batch points finish =>
    -- the two lines around the updates are those of their commands
    obtain ⟨times, hlength, htimes⟩ := updateLines_run h
    refine ⟨_, .batch points times finish hlength, .cons rfl ?_⟩
    exact List.rel_append htimes (.cons rfl .nil)
  | leave =>
    obtain rfl := Except.ok.inj h
    exact ⟨_, .leave, .cons rfl .nil⟩
  | close => exact ⟨_, .close, .nil⟩
  | pingAndClose =>
    obtain rfl := Except.ok.inj h
    exact ⟨_, .pingAndClose, .cons rfl .nil⟩

/-! ### One call -/

/-- What a run of a dialogue sent. -/
def Dialogue.sentIn {α : Type} (d : Dialogue α) (w : World) : List String :=
  (d.run w).2.sent.drop w.sent.length

theorem Dialogue.sentIn_of_run {α : Type} {d : Dialogue α} {w : World} {lines : List String}
    (h : (d.run w).2.sent = w.sent ++ lines) : d.sentIn w = lines := by
  rw [sentIn, h, List.drop_left]

theorem Call.maySend_nil (c : Call) : c.MaySend [] :=
  ⟨Nat.zero_le _, .inl rfl⟩

/-- Whatever happens, a call sends nothing but the lines of its requests. -/
theorem Call.sends (c : Call) (w : World) :
    ∃ lines, c.MaySend lines ∧ (c.dialogue.run w).2.sent = w.sent ++ lines := by
  have hencode : Writes c.course.encode [] :=
    .of_asks (c.course.asks_encode.mono (by rintro _ rfl; simp))
  obtain ⟨none, hnone, hsent, -⟩ := hencode w
  obtain rfl := List.prefix_nil.1 hnone
  rw [List.append_nil] at hsent
  rw [dialogue_phases]
  rcases hlines : (c.course.encode.run w).1 with e | lines
  · rw [run_bind_error hlines]
    exact ⟨[], c.maySend_nil, by rw [hsent, List.append_nil]⟩
  · obtain ⟨requests, hrequests, hwritten⟩ := Course.encode_sends hlines
    obtain ⟨sent, hprefix, hrun, -⟩ := c.course.writes_sending lines (c.course.encode.run w).2
    rw [run_bind_ok hlines, hrun, hsent]
    refine ⟨sent, ⟨?_, .inr ⟨requests, hrequests, ?_⟩⟩, rfl⟩
    · have hlength := hwritten.length_eq ▸ hrequests.length_le
      exact hprefix.length_le.trans hlength
    · -- the lines that went out are the first ones, and each of them is well-formed
      have htake := List.forall₂_take sent.length hwritten
      rw [← List.prefix_iff_eq_take.1 hprefix] at htake
      exact htake.imp fun _ _ => carries_of_line

/-! ### Sessions -/

/-- A step of a session: a call, or a new connection. -/
inductive Step
  | call (call : Call)
  | connect (address : Address)
  | connectTo (text : String)

namespace Step

/-- The dialogue of a step. -/
def dialogue : Step → Dialogue Outcome
  | call c => c.dialogue
  | connect address => (Client.connect address).silent
  | connectTo text => (Client.connectTo text).silent

/-- What a step may send. -/
def MaySend : Step → List String → Prop
  | call c, lines => c.MaySend lines
  | connect _, lines | connectTo _, lines => lines = []

end Step

/-- The world after the steps of a session. -/
def session : List Step → World → World
  | [], w => w
  | step :: steps, w => session steps (step.dialogue.run w).2

/-- What each step of a session sends. -/
def sentBy : List Step → World → List (List String)
  | [], _ => []
  | step :: steps, w => step.dialogue.sentIn w :: sentBy steps (step.dialogue.run w).2

theorem writes_connect (address : Address) : Writes (Client.connect address) [] :=
  .of_asks (Client.asks_connect (by simp) (by simp))

theorem Step.sends (step : Step) (w : World) :
    ∃ lines, step.MaySend lines ∧ (step.dialogue.run w).2.sent = w.sent ++ lines := by
  have hsilent : ∀ d : Dialogue Unit, Writes d [] →
      ∃ lines, lines = [] ∧ (d.silent.run w).2.sent = w.sent ++ lines := by
    intro d hd
    obtain ⟨lines, hlines, hsent, -⟩ := hd w
    rw [silent, run_map]
    exact ⟨lines, List.prefix_nil.1 hlines, hsent⟩
  cases step with
  | call c => exact c.sends w
  | connect address => exact hsilent _ (writes_connect address)
  | connectTo text =>
    exact hsilent _ (Writes.nil_bind (.of_asks (asks_ofExcept _)) writes_connect)

/-- Each step of a session sends nothing but the lines of its requests, and that is all that
is sent. -/
theorem session_sent (steps : List Step) (w : World) :
    List.Forall₂ Step.MaySend steps (sentBy steps w) ∧
      (session steps w).sent = w.sent ++ (sentBy steps w).flatten := by
  induction steps generalizing w with
  | nil => exact ⟨.nil, (List.append_nil _).symm⟩
  | cons step steps ih =>
    obtain ⟨lines, hlines, hsent⟩ := step.sends w
    obtain ⟨hlater, hall⟩ := ih (step.dialogue.run w).2
    have hin := sentIn_of_run hsent
    rw [sentBy, session, hin]
    refine ⟨.cons hlines hlater, ?_⟩
    rw [hall, hsent, List.flatten_cons, List.append_assoc]

end RrdCache
