/-
RrdCache/Proofs/Session/Atomicity.lean

Requests are written down before anything is done.  If a request cannot be written down, the
step that would send it does nothing at all: it reads, sends, closes and dials nothing and
keeps no record, and at most some readings of the clock are used up.  If it can, the first
thing that happens to the connection is that its line is handed over, and from then on no
fault and no reply leads to an error of the kind that an unfit request has.

Main result (`Step.writes_down_first`).
-/
import RrdCache.Proofs.Client.Errors
import RrdCache.Proofs.Client.Points
import RrdCache.Proofs.Client.Writes
import RrdCache.Proofs.Dialogue.Traffic
import RrdCache.Proofs.Session.Lines

namespace RrdCache

open Dialogue

/-! ### The first line -/

namespace Client

theorem starts_writeLine (line : String) : (writeLine line).Starts line := by
  intro w
  rw [writeLine, traffic_bind_ok rfl, traffic_record, List.nil_append]
  exact Starts.bind (fun v => ⟨_, [], traffic_perform rfl v⟩) _ _

theorem starts_writeLines (line : String) (lines : List String) :
    (writeLines (line :: lines)).Starts line :=
  (starts_writeLine line).bind _

end Client

namespace Course

/-- The line that a course begins with from this position of the clock, if it sends any. -/
def opening : Course → Clock → Except Error (Option String)
  | order request _, _ => some <$> request.line
  | update point, clock => point >>= fun p => some <$> p.lineFrom clock
  | batch points _, clock =>
    Point.linesFrom points clock >>= fun _ => some <$> (Request.command .batch).line
  | leave, _ => some <$> (Request.command .quit).line
  | close, _ => .ok none
  | pingAndClose, _ => some <$> (Request.command .ping).line

/-- A course begins with the first line that it writes down. -/
theorem opening_eq (c : Course) (w : World) :
    c.opening w.clock = (fun lines => (c.wire lines).head?) <$> (c.encode.run w).1 := by
  cases c with
  | order request decode =>
    rw [opening, encode, run_map, run_ofExcept]
    cases request.line <;> rfl
  | update point =>
    rw [opening, encode, run_map, pointLine]
    rcases point with e | p
    · rfl
    · rw [ofExcept_ok_bind, Client.run_updateLine]
      show some <$> p.lineFrom w.clock = _
      cases p.lineFrom w.clock <;> rfl
  | batch points finish =>
    rw [opening, encode, Client.run_updateLines]
    cases Point.linesFrom points w.clock <;> rfl
  | leave | close | pingAndClose => rfl

/-- What a course does to its connection begins with its first line. -/
theorem starts_sending {c : Course} {lines : List String} {line : String}
    (h : (c.wire lines).head? = some line) : (c.sending lines).Starts line := by
  have hdelivering : ∀ decode, lines.head? = some line →
      (delivering lines decode).Starts line := by
    intro decode hline
    obtain ⟨later, rfl⟩ := List.head?_eq_some_iff.1 hline
    exact (Client.starts_writeLines line later).bind _
  cases c with
  | order request decode => exact hdelivering _ h
  | update point => exact hdelivering _ h
  | batch points finish =>
    obtain rfl := Option.some.inj h
    exact ((Client.starts_writeLine _).bind _).bind _
  | leave =>
    obtain ⟨later, rfl⟩ := List.head?_eq_some_iff.1 h
    exact (Client.starts_writeLines line later).map _
  | close => exact absurd h (by simp [wire])
  | pingAndClose => exact (hdelivering _ h).andThen _

end Course

/-! ### Steps -/

/-- Opening a connection fails in no way in which a request does. -/
theorem Client.late_connect (address : Address) : (connect address).Raises Error.IsLate :=
  (exchanges_connect fun _ _ => staysIn_of_mem trivial).raises_late

namespace Step

/-- The line that a step begins with from this position of the clock, if it sends any.  There
is none if its request cannot be written down, and then this is the error. -/
def opening : Step → Clock → Except Error (Option String)
  | call c, clock => c.course.opening clock
  | connect _, _ | connectTo _, _ => .ok none

/-- A step whose request cannot be written down fails with that error, and only looks. -/
theorem run_of_opening_error {step : Step} {w : World} {e : Error}
    (h : step.opening w.clock = .error e) :
    (step.dialogue.run w).1 = .error e ∧ step.dialogue.OnlyLooks w := by
  cases step with
  | call c =>
    rw [opening, Course.opening_eq] at h
    have hencode : (c.course.encode.run w).1 = .error e := by
      rcases hlines : (c.course.encode.run w).1 with e' | lines <;> rw [hlines] at h
      · exact congrArg Except.error (Except.error.inj h)
      · cases h
    rw [dialogue, Call.dialogue_phases, run_bind_error hencode]
    exact ⟨rfl, (c.course.asks_encode.onlyLooks w).bind hencode⟩
  | connect _ | connectTo _ => cases h

/-- A step whose request can be written down begins with its line, and fails in no way in
which a request does. -/
theorem run_of_opening_ok {step : Step} {w : World} {first : Option String}
    (h : step.opening w.clock = .ok first) :
    FailsWith Error.IsLate (step.dialogue.run w).1 ∧
      ∀ line, first = some line →
        ∃ answer after, step.dialogue.traffic w = ⟨.write line, answer⟩ :: after := by
  cases step with
  | call c =>
    rw [opening, Course.opening_eq] at h
    obtain ⟨lines, hlines, hfirst⟩ := Result.map_eq_ok.1 h
    have hlooks : c.course.encode.traffic w = [] := (c.course.asks_encode.onlyLooks w).traffic
    rw [dialogue, Call.dialogue_phases, run_bind_ok hlines, traffic_bind_ok hlines, hlooks,
      List.nil_append]
    have hsending : (c.course.sending lines).Raises Error.IsLate :=
      (c.course.exchanges_sending lines fun _ hr => c.exchange_decode hr).raises_late
    refine ⟨hsending.run _, ?_⟩
    rintro line rfl
    exact Course.starts_sending hfirst _
  | connect address =>
    obtain rfl := Except.ok.inj h
    exact ⟨((Client.late_connect address).map _).run w, by simp⟩
  | connectTo text =>
    obtain rfl := Except.ok.inj h
    have hparse : FailsWith Error.IsLate (Address.ofText text) := fun e he =>
      (Client.exchange_ofText (T := fun _ => True) text e he).late
    have hconnect : (Client.connectTo text).Raises Error.IsLate :=
      Raises.bind (raises_ofExcept hparse) Client.late_connect
    exact ⟨(hconnect.map _).run w, by simp⟩

/-- An error of a request is all that happens in a step.  It is raised if the request cannot
be written down; if it can, the line comes first on the connection, and no such error
follows. -/
theorem writes_down_first (step : Step) (w : World) :
    (∀ e, (step.dialogue.run w).1 = .error e → e.isOfRequest → step.dialogue.OnlyLooks w) ∧
      match step.opening w.clock with
      | .error e => (step.dialogue.run w).1 = .error e ∧ step.dialogue.OnlyLooks w
      | .ok first =>
        (∀ e, (step.dialogue.run w).1 = .error e → e.isOfRequest = false) ∧
          ∀ line, first = some line →
            ∃ answer after, step.dialogue.traffic w = ⟨.write line, answer⟩ :: after := by
  rcases hopening : step.opening w.clock with e | first
  · have hfailed := run_of_opening_error hopening
    exact ⟨fun _ _ _ => hfailed.2, hfailed⟩
  · have hsent := run_of_opening_ok hopening
    refine ⟨?_, hsent⟩
    intro e he hrequest
    exact absurd (hsent.1 e he) (by simp [hrequest])

end Step

end RrdCache
