/-
RrdCache/Proofs/Session/Readings.lean

Which reading of the clock goes where.  A point without a time of its own takes one reading when
its line is written down; nothing else takes any.  The points of a batch are written down one
after the other up to the first one that fails, so that this point and those before it are the
ones that take readings, and the next call goes on with the reading after theirs.

A reading is put into the line as it is if it is a whole number that is not negative.  Any other
one ends the call before anything is sent, with the error that the reading is or that shows it.
The exception is a negative number that is too long to be shown (`Reading.RefusedAs.unshown`).

Main result (`session_readings`): the account of a whole session.
-/
import RrdCache.Proofs.Client.Writes
import RrdCache.Proofs.Dialogue.Looks
import RrdCache.Proofs.Escape.Call
import RrdCache.Proofs.Request.Rules
import RrdCache.Proofs.Session.Updates

namespace RrdCache

open Dialogue

/-! ### Readings that give no time -/

/-- The error for a reading that is no time. -/
inductive Reading.RefusedAs : Reading → Error → Prop
  /-- What a clock raises is passed on. -/
  | raised (e : Error) : RefusedAs (.error e) e
  | unfit {v : Scalar} (no_time : ∀ t : Nat, v ≠ .int t) (short : ¬ v.Overlong) :
    RefusedAs (.ok v) (.clock (.reading v))
  /-- The message for the error cannot be made. -/
  | unshown {i : Int} (negative : i < 0) (long : Numeral.Overlong i) :
    RefusedAs (.ok (.int i)) (.numeral .tooLarge)

namespace Reading

variable {r : Reading}

theorem refusedAs_of_seconds {e : Error} (h : r.seconds = .error e) : r.RefusedAs e := by
  rcases r with e' | v
  · obtain rfl := Except.error.inj h
    exact .raised e'
  have hno : ∀ t : Nat, v ≠ .int t := by
    rintro t rfl
    cases (seconds_eq_ok.2 rfl).symm.trans h
  have hnone : v.epoch? = none := by
    rw [seconds] at h
    split at h
    · cases h
    · assumption
  rw [seconds, hnone] at h
  obtain rfl := Except.error.inj h
  by_cases hv : v.Overlong
  · obtain ⟨i, rfl, hi⟩ := hv
    rw [Error.showing, Scalar.shown?, Numeral.text_of_overlong hi]
    refine .unshown ?_ hi
    by_contra hnatural
    exact hno i.toNat (by rw [Int.toNat_of_nonneg (Int.not_lt.1 hnatural)])
  · rw [Error.showing_eq hv]
    exact .unfit hno hv

/-- What a clock raises says why there is no time, and so does the refusal of a reading, unless
it cannot be shown. -/
theorem RefusedAs.clock {e : Error} (h : r.RefusedAs e)
    (hordinary : ∀ e, r = .error e → ∃ cause, e = .clock cause) (hshort : ¬ r.Overlong) :
    ∃ cause, e = .clock cause := by
  cases h with
  | raised => exact hordinary e rfl
  | unfit => exact ⟨_, rfl⟩
  | unshown negative long => exact absurd ⟨_, rfl, negative, long⟩ hshort

end Reading

theorem Clock.IsOrdinary.reading {c : Clock} (hc : c.IsOrdinary) (n : Nat) :
    ∀ e, c.reading n = .error e → ∃ cause, e = .clock cause :=
  hc _ (c.reading_mem n)

/-! ### Writing points down -/

namespace Point

/-- The number of points without a time of their own. -/
def omitted (points : List Point) : Nat :=
  points.countP (·.timestamp.isNone)

/-- The line of a point with this time in it, which is not too long to be written. -/
def LineAt (p : Point) (time : Nat) (line : String) : Prop :=
  ¬ Numeral.Overlong time ∧ ∃ values, valuesField p.values = .ok values ∧
    line = "UPDATE " ++ p.path.file ++ " " ++ Numeral.spelling time ++ ":" ++ values ++ "\n"

/-- The time of a point where the clock gives its `n`-th reading next. -/
inductive TimeAt (clock : Clock) (n : Nat) (p : Point) : Nat → Prop
  /-- A time of its own needs no reading. -/
  | own {time : Nat} (given : p.timestamp = some time) : TimeAt clock n p time
  | read {time : Nat} (omitted : p.timestamp = none)
      (reading : clock.reading n = .ok (.int time)) : TimeAt clock n p time

/-- Points that all have lines, where the clock gives its `n`-th reading next. -/
inductive Encodes (clock : Clock) : Nat → List Point → List String → Prop
  | nil {n : Nat} : Encodes clock n [] []
  | cons {n time : Nat} {p : Point} {line : String} {points : List Point} {lines : List String}
      (time_at : p.TimeAt clock n time) (line_at : p.LineAt time line)
      (later : Encodes clock (n + omitted [p]) points lines) :
    Encodes clock n (p :: points) (line :: lines)

/-- A point that has no line, and the error. -/
inductive Fails (clock : Clock) (n : Nat) (p : Point) (e : Error) : Prop
  | reading (omitted : p.timestamp = none) (refused : (clock.reading n).RefusedAs e)
  | line {time : Nat} (time_at : p.TimeAt clock n time) (no_line : p.line time = .error e)

/-- What comes of writing points down, and how many readings it takes: all points have lines, or
one of them is the first that has none. -/
inductive Encoding (clock : Clock) (n : Nat) :
    List Point → Except Error (List String) → Nat → Prop
  | whole {points : List Point} {lines : List String} (encodes : Encodes clock n points lines) :
    Encoding clock n points (.ok lines) (omitted points)
  | cut {done : List Point} {p : Point} {lines : List String} {e : Error}
      (encodes : Encodes clock n done lines) (fails : p.Fails clock (n + omitted done) e)
      (rest : List Point) :
    Encoding clock n (done ++ p :: rest) (.error e) (omitted (done ++ [p]))

variable {p : Point} {clock : Clock} {n : Nat}

theorem omitted_cons (p : Point) (points : List Point) :
    omitted (p :: points) = omitted [p] + omitted points := by
  rw [omitted, omitted, omitted, List.countP_cons, List.countP_singleton, Nat.add_comm]

theorem line_eq_ok {time : Nat} {line : String} : p.line time = .ok line ↔ p.LineAt time line := by
  constructor
  · intro h
    obtain ⟨values, hvalues, h⟩ := Result.bind_eq_ok.1 h
    obtain ⟨field, hfield, h⟩ := Result.bind_eq_ok.1 h
    obtain ⟨hshort, rfl⟩ := intField_eq_ok.1 hfield
    exact ⟨hshort, values, hvalues, (Except.ok.inj h).symm⟩
  · rintro ⟨hshort, values, hvalues, rfl⟩
    exact Result.bind_eq_ok.2 ⟨values, hvalues,
      Result.bind_eq_ok.2 ⟨_, intField_eq_ok.2 ⟨hshort, rfl⟩, rfl⟩⟩

theorem timeFrom_eq_ok {time : Nat} :
    p.timeFrom (clock.after n) = .ok time ↔ p.TimeAt clock n time := by
  constructor
  · intro h
    rw [timeFrom] at h
    split at h
    · rename_i given
      obtain rfl := Except.ok.inj h
      exact .own given
    · rename_i omitted
      rw [Clock.next_after] at h
      exact .read omitted (Reading.seconds_eq_ok.1 h)
  · intro h
    cases h with
    | own given => rw [timeFrom, given]
    | read omitted reading =>
      rw [timeFrom, omitted, Clock.next_after]
      exact Reading.seconds_eq_ok.2 reading

theorem lineFrom_eq_ok {line : String} :
    p.lineFrom (clock.after n) = .ok line ↔ ∃ time, p.TimeAt clock n time ∧ p.LineAt time line := by
  simp only [lineFrom, Result.bind_eq_ok, timeFrom_eq_ok, line_eq_ok]

/-- A point without a line is one without a time, or one whose values or time have no text. -/
theorem fails_of_lineFrom {e : Error} (h : p.lineFrom (clock.after n) = .error e) :
    p.Fails clock n e := by
  rw [lineFrom] at h
  rcases htime : p.timeFrom (clock.after n) with e' | time
  · rw [htime] at h
    obtain rfl := Except.error.inj h
    rw [timeFrom] at htime
    split at htime
    · cases htime
    · rename_i omitted
      rw [Clock.next_after] at htime
      exact .reading omitted (Reading.refusedAs_of_seconds htime)
  · rw [htime] at h
    exact .line (timeFrom_eq_ok.1 htime) h

/-- A point that gets a reading which is no time has no line, and this is the error. -/
theorem lineFrom_of_reading (homitted : p.timestamp = none)
    (hreading : ∀ t : Nat, clock.reading n ≠ .ok (.int t)) :
    ∃ e, p.lineFrom (clock.after n) = .error e ∧ (clock.reading n).RefusedAs e := by
  have htime : p.timeFrom (clock.after n) = (clock.reading n).seconds := by
    rw [timeFrom, homitted, Clock.next_after]
  rcases hseconds : (clock.reading n).seconds with e | t
  · refine ⟨e, ?_, Reading.refusedAs_of_seconds hseconds⟩
    rw [lineFrom, htime, hseconds]
    rfl
  · exact absurd (Reading.seconds_eq_ok.1 hseconds) (hreading t)

theorem clockAfter_after (p : Point) (clock : Clock) (n : Nat) :
    p.clockAfter (clock.after n) = clock.after (n + omitted [p]) := by
  rw [clockAfter, omitted, List.countP_singleton]
  rcases p.timestamp with - | t
  · exact clock.look_after n
  · rfl

theorem clockAfterAll_after (points : List Point) (clock : Clock) (n : Nat) :
    clockAfterAll points (clock.after n) = clock.after (n + omitted points) := by
  induction points generalizing n with
  | nil => rfl
  | cons p points ih =>
    rw [omitted_cons, ← Nat.add_assoc, ← ih, ← clockAfter_after]
    rfl

theorem linesFrom_of_encodes {points : List Point} {lines : List String}
    (h : Encodes clock n points lines) : linesFrom points (clock.after n) = .ok lines := by
  induction h with
  | nil => rfl
  | cons time_at line_at later ih =>
    rw [← clockAfter_after] at ih
    exact Result.bind_eq_ok.2
      ⟨_, lineFrom_eq_ok.2 ⟨_, time_at, line_at⟩, Result.bind_eq_ok.2 ⟨_, ih, rfl⟩⟩

end Point

namespace Client

variable {w : World} {clock : Clock} {n : Nat}

theorem looked_timeOf (p : Point) (w : World) :
    ((timeOf p).looked w).length = Point.omitted [p] := by
  rw [timeOf, Point.omitted, List.countP_singleton]
  rcases p.timestamp with - | t
  · rw [looked_bind fun _ => asks_ofExcept _]
    rfl
  · rfl

theorem looked_updateLine (p : Point) (w : World) :
    ((updateLine p).looked w).length = Point.omitted [p] := by
  rw [updateLine, looked_bind fun _ => asks_ofExcept _, looked_timeOf]

/-- Writing points down takes one reading for each point without a time, in their order, up to
the first point that fails. -/
theorem encoding_updateLines (points : List Point) (h : w.clock = clock.after n) :
    Point.Encoding clock n points ((updateLines points).run w).1
      ((updateLines points).looked w).length := by
  induction points generalizing w n with
  | nil => exact .whole .nil
  | cons p points ih =>
    have hrun := run_updateLine p w
    rw [h, Point.clockAfter_after] at hrun
    rcases hline : p.lineFrom (clock.after n) with e | line
    · have hfirst : ((updateLine p).run w).1 = .error e := by rw [hrun, hline]
      rw [updateLines, run_bind_error hfirst, looked_bind_error hfirst, looked_updateLine]
      exact .cut .nil (Point.fails_of_lineFrom hline) points
    · have hfirst : ((updateLine p).run w).1 = .ok line := by rw [hrun, hline]
      have hlater := ih (w := ((updateLine p).run w).2) (by rw [hrun]; rfl)
      obtain ⟨time, htime, hline⟩ := Point.lineFrom_eq_ok.1 hline
      rw [updateLines, run_bind_ok hfirst, looked_bind_ok hfirst,
        looked_bind (f := fun lines => pure (line :: lines)) fun _ => asks_done _,
        List.length_append, looked_updateLine, run_bind]
      generalize ((updateLines points).run ((updateLine p).run w).2).1 = encoded at hlater ⊢
      generalize ((updateLines points).looked ((updateLine p).run w).2).length = k at hlater ⊢
      cases hlater with
      | whole encodes =>
        rw [← Point.omitted_cons]
        exact .whole (.cons htime hline encodes)
      | @cut done q lines e encodes fails rest =>
        rw [← Point.omitted_cons]
        rw [Nat.add_assoc, ← Point.omitted_cons] at fails
        exact .cut (.cons htime hline encodes) fails rest

end Client

/-! ### Whole calls -/

/-- The points that a call writes down. -/
def Course.points : Course → List Point
  | update (.ok p) => [p]
  | batch points _ => points
  | _ => []

/-- The points that a step writes down: only updates and batches have any. -/
def Step.points : Step → List Point
  | call c => c.course.points
  | connect _ | connectTo _ => []

/-- How a step uses the clock, which gives its `n`-th reading next; `encoded` is what comes of
writing down the points of the step. -/
structure Step.Accounts (clock : Clock) (n : Nat) (step : Step) (w : World)
    (encoded : Except Error (List String)) : Prop where
  /-- Each point without a time that is written down takes one reading, and nothing else does. -/
  encodes : Point.Encoding clock n step.points encoded (step.dialogue.looked w).length
  /-- The readings are the next ones, in order. -/
  in_order : step.dialogue.looked w
    = (List.range' n (step.dialogue.looked w).length).map clock.reading
  /-- The lines are what is sent, as far as sending gets. -/
  sends : ∀ lines c, encoded = .ok lines → step = .call c → step.points ≠ [] →
    ∃ sent, sent <+: c.course.wire lines ∧ (step.dialogue.run w).2.sent = w.sent ++ sent
  /-- A point that has no line ends the step, and nothing is sent. -/
  fails : ∀ e, encoded = .error e →
    (step.dialogue.run w).1 = .error e ∧ (step.dialogue.run w).2.sent = w.sent
  /-- A reading that is no time leaves its point without a line.  The error is that there is no
  time, unless the reading cannot be shown. -/
  refuses : ∀ done p rest lines, step.points = done ++ p :: rest →
    Point.Encodes clock n done lines → p.timestamp = none →
    (∀ t : Nat, clock.reading (n + Point.omitted done) ≠ .ok (.int t)) →
    ∃ e, encoded = .error e ∧ (clock.reading (n + Point.omitted done)).RefusedAs e ∧
      (clock.IsOrdinary → ¬ (clock.reading (n + Point.omitted done)).Overlong →
        ∃ cause, e = .clock cause)

namespace Course

variable {w : World} {clock : Clock} {n : Nat}

/-- What a call writes down is the lines of its points; a call without points does not look at
the clock. -/
theorem encode_cases (c : Course) :
    c.encode = Client.updateLines c.points ∨ (c.points = [] ∧ c.encode.Asks (· ≠ .look)) := by
  have hrequest : ∀ r : Except Error String,
      ((([·]) <$> ofExcept r : Dialogue (List String))).Asks (· ≠ .look) :=
    fun r => Asks.map _ (asks_ofExcept _)
  cases c with
  | order | leave | pingAndClose => exact .inr ⟨rfl, hrequest _⟩
  | close => exact .inr ⟨rfl, asks_done _⟩
  | batch points finish => exact .inl rfl
  | update point =>
    rcases point with e | p
    · exact .inr ⟨rfl, Asks.map _ (asks_done _)⟩
    · refine .inl ?_
      rw [encode, pointLine, ofExcept_ok_bind, map_eq_pure_bind]
      rfl

end Course

namespace Step

variable {w : World} {clock : Clock} {n : Nat}

/-- A step that writes no points down takes no reading. -/
theorem accounts_of_asks {step : Step} (hpoints : step.points = [])
    (hasks : step.dialogue.Asks (· ≠ .look)) : step.Accounts clock n w (.ok []) where
  encodes := by
    rw [looked_of_asks hasks, hpoints]
    exact .whole .nil
  in_order := by
    rw [looked_of_asks hasks]
    rfl
  sends _ _ _ _ hne := absurd hpoints hne
  fails e he := by cases he
  refuses done p rest lines hsplit := by
    rw [hpoints] at hsplit
    exact absurd hsplit.symm (List.append_ne_nil_of_right_ne_nil _ (List.cons_ne_nil _ _))

/-- A call whose lines are those of its points takes their readings, and then no more. -/
theorem accounts_of_updateLines {c : Call}
    (hc : c.course.encode = Client.updateLines c.course.points) (h : w.clock = clock.after n) :
    (call c).Accounts clock n w ((Client.updateLines c.course.points).run w).1 := by
  have hdialogue : (call c).dialogue
      = Client.updateLines c.course.points >>= c.course.sending := by
    rw [dialogue, Call.dialogue_phases, hc]
  have hlooked : (call c).dialogue.looked w = (Client.updateLines c.course.points).looked w := by
    rw [hdialogue]
    exact looked_bind (fun lines => (c.course.asks_sending lines).mono fun _ h => h.1) w
  have hsent : ((Client.updateLines c.course.points).run w).2.sent = w.sent := by
    rw [((Client.asks_updateLines c.course.points).onlyLooks w).world]
    rfl
  refine ⟨?encodes, ?in_order, ?sends, ?fails, ?refuses⟩
  case encodes =>
    rw [hlooked]
    exact Client.encoding_updateLines _ h
  case in_order => exact (looked_run _ h).1
  case sends =>
    rintro lines c' hlines ⟨⟩ -
    obtain ⟨sent, hprefix, hrun, -⟩ :=
      c.course.writes_sending lines ((Client.updateLines c.course.points).run w).2
    refine ⟨sent, hprefix, ?_⟩
    rw [hdialogue, run_bind_ok hlines, hrun, hsent]
  case fails =>
    intro e he
    rw [hdialogue, run_bind_error he]
    exact ⟨rfl, hsent⟩
  case refuses =>
    intro done p rest lines hsplit hdone homitted hreading
    obtain ⟨e, hline, hrefused⟩ := Point.lineFrom_of_reading homitted hreading
    refine ⟨e, ?_, hrefused, fun hordinary => hrefused.clock (hordinary.reading _)⟩
    have hpoints : c.course.points = done ++ p :: rest := hsplit
    rw [← Point.clockAfterAll_after, ← h] at hline
    rw [hpoints, Client.run_updateLines_error (h ▸ Point.linesFrom_of_encodes hdone) rest hline]

/-- Every step takes the readings of the points that it writes down. -/
theorem exists_accounts (step : Step) (h : w.clock = clock.after n) :
    ∃ encoded, step.Accounts clock n w encoded := by
  cases step with
  | call c =>
    rcases c.course.encode_cases with hc | ⟨hpoints, hasks⟩
    · exact ⟨_, accounts_of_updateLines hc h⟩
    · refine ⟨_, accounts_of_asks hpoints ?_⟩
      rw [dialogue, Call.dialogue_phases]
      exact hasks.bind fun lines => (c.course.asks_sending lines).mono fun _ h => h.1
  | connect address =>
    exact ⟨_, accounts_of_asks rfl ((Client.asks_connect (by simp) (by simp)).map _)⟩
  | connectTo text =>
    refine ⟨_, accounts_of_asks rfl (Asks.map _ ?_)⟩
    exact (asks_ofExcept _).bind fun _ => Client.asks_connect (by simp) (by simp)

end Step

/-! ### Sessions -/

/-- The account of the clock along a session: each step goes on with the reading after those
that the steps before it took. -/
def AccountsFrom (clock : Clock) : Nat → List Step → World → Prop
  | _, [], _ => True
  | n, step :: steps, w =>
    (∃ encoded, step.Accounts clock n w encoded) ∧
      AccountsFrom clock (n + (step.dialogue.looked w).length) steps (step.dialogue.run w).2

theorem accountsFrom_after {clock : Clock} {n : Nat} (steps : List Step) {w : World}
    (h : w.clock = clock.after n) : AccountsFrom clock n steps w := by
  induction steps generalizing w n with
  | nil => trivial
  | cons step steps ih => exact ⟨step.exists_accounts h, ih (looked_run _ h).2⟩

/-- Whatever the readings of the clock are and whatever fails, the points without a time that a
session writes down take one reading each, in the order of the steps and of the points, and
nothing else takes any. -/
theorem session_readings (steps : List Step) (w : World) : AccountsFrom w.clock 0 steps w :=
  accountsFrom_after steps rfl

theorem Numeral.exists_overlong_neg : ∃ i < 0, Overlong i := by
  obtain ⟨i, hi⟩ := exists_overlong
  have hpositive : 0 < i.natAbs := by
    refine Nat.lt_of_lt_of_le ?_ hi
    generalize digitLimit = limit
    exact Nat.pow_pos (by decide)
  refine ⟨-i.natAbs, by omega, ?_⟩
  rw [Overlong, Int.natAbs_neg, Int.natAbs_natCast]
  exact hi

/-- A reading that is no time does not always end in the error that there is none: a negative
number may be too long for the message. -/
theorem not_always_unavailable :
    ¬ ∀ (p : Point) (w : World), p.timestamp = none → w.clock.IsOrdinary →
      (∀ t : Nat, w.clock.next ≠ .ok (.int t)) →
      ∃ cause, (p.alone.dialogue.run w).1 = .error (.clock cause) := by
  intro h
  obtain ⟨i, hnegative, hlong⟩ := Numeral.exists_overlong_neg
  let w : World := { incoming := [], clock := .fixed (.int i) }
  have hreading : ∀ t : Nat, w.clock.next ≠ .ok (.int t) := by
    intro t ht
    have : i = t := Scalar.int.inj (Except.ok.inj ht)
    omega
  have hordinary : w.clock.IsOrdinary := by
    intro r hr e he
    obtain rfl := List.mem_singleton.1 hr
    cases he
  obtain ⟨cause, hcause⟩ := h (.now (.int 1)) w rfl hordinary hreading
  obtain ⟨e, hline, hrefused⟩ :=
    Point.lineFrom_of_reading (p := .now (.int 1)) (n := 0) rfl hreading
  obtain rfl := Except.error.inj ((run_alone_error hline).symm.trans hcause)
  generalize hnext : w.clock.reading 0 = r at hrefused
  cases hrefused with
  | raised => cases hnext
  | unfit no_time short =>
    obtain rfl := Except.ok.inj hnext
    exact short ⟨i, rfl, hlong⟩

end RrdCache
