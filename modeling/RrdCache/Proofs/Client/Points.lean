/-
RrdCache/Proofs/Client/Points.lean

Points and the clock.  To write down the line of a point a client takes the point's own time
or looks at the clock, and does nothing else.  `Point.lineFrom` is that line for a position
of the clock, and `run_updateLine` says that writing the line down gives it, whatever the
surroundings are; `Point.linesFrom` and `run_updateLines` say the same of many points.
-/
import RrdCache.Client.Updates
import RrdCache.Proofs.Dialogue.Frame
import RrdCache.Proofs.Result

namespace RrdCache

open Dialogue

namespace Point

/-- The time that the line of a point gets from this position of the clock. -/
def timeFrom (p : Point) (clock : Clock) : Except Error Nat :=
  match p.timestamp with
  | some t => .ok t
  | none => clock.next.seconds

/-- The clock after the line of a point was written down. -/
def clockAfter (p : Point) (clock : Clock) : Clock :=
  if p.timestamp.isSome then clock else clock.look.2

/-- The line of a point from this position of the clock. -/
def lineFrom (p : Point) (clock : Clock) : Except Error String :=
  p.timeFrom clock >>= p.line

/-- The lines of points from this position of the clock; the first point that has none gives
the error. -/
def linesFrom : List Point → Clock → Except Error (List String)
  | [], _ => .ok []
  | p :: points, clock => do
    let line ← p.lineFrom clock
    let lines ← linesFrom points (p.clockAfter clock)
    .ok (line :: lines)

end Point

/-- Only a whole number that is not negative gives a time, and it gives itself. -/
theorem Reading.seconds_eq_ok {r : Reading} {time : Nat} :
    r.seconds = .ok time ↔ r = .ok (.int time) := by
  rcases r with e | v
  · simp [seconds]
  · cases v with
    | int i =>
      by_cases hi : 0 ≤ i
      · simp only [seconds, Scalar.epoch?, hi, if_true, Except.ok.injEq, Scalar.int.injEq]
        omega
      · simp only [seconds, Scalar.epoch?, hi, if_false, reduceCtorEq, Except.ok.injEq,
          Scalar.int.injEq, false_iff]
        omega
    | null | bool _ | float _ | text _ | blank => simp [seconds, Scalar.epoch?]

namespace Client

theorem run_timeOf (p : Point) (w : World) :
    (timeOf p).run w = (p.timeFrom w.clock, w.withClock (p.clockAfter w.clock)) := by
  rw [timeOf, Point.timeFrom, Point.clockAfter]
  rcases p.timestamp with - | t
  · show (w.clock.look.1.seconds, w.withClock w.clock.look.2) = _
    rw [Clock.look_fst]
    rfl
  · rfl

theorem run_updateLine (p : Point) (w : World) :
    (updateLine p).run w = (p.lineFrom w.clock, w.withClock (p.clockAfter w.clock)) := by
  rw [updateLine, run_bind, run_timeOf, Point.lineFrom]
  cases p.timeFrom w.clock <;> rfl

theorem run_updateLines (points : List Point) (w : World) :
    ((updateLines points).run w).1 = Point.linesFrom points w.clock := by
  induction points generalizing w with
  | nil => rfl
  | cons p points ih =>
    rw [updateLines, run_bind, run_updateLine, Point.linesFrom]
    rcases p.lineFrom w.clock with e | line
    · rfl
    · dsimp only
      rw [run_bind, ih, World.withClock]
      dsimp only
      rcases Point.linesFrom points (p.clockAfter w.clock) with e | lines <;> rfl

end Client

end RrdCache
