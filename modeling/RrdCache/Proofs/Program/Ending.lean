/-
RrdCache/Proofs/Program/Ending.lean

How the program ends.  Whatever the daemon sends and whatever fails, the program reports: it
prints the result and exits with 0 if its address is one, and dialing, its task and closing
succeed; otherwise it exits with 1 and prints the error that was raised last.  It dials at
most once, and what it dialed it closes, after which nothing is read or written.  Only a level
or an archive that was left blank makes it break off without a report.

Main result (`Invocation.ends`).
-/
import RrdCache.Proofs.Program.Stages

namespace RrdCache

open Dialogue

namespace Invocation

variable {i : Invocation} {setting : Option String} {time : String} {a : Address} {w : World}

/-! ### Breaking off -/

/-- Where the program breaks off: at a blank level before it does anything, and at a blank
archive once the connection is closed. -/
inductive BreaksOff (i : Invocation) (setting : Option String) (w : World) : Error → Prop
  | level (level : i.level = .blank) : BreaksOff i setting w (.blank .level)
  | archive {l : LogLevel} {path : String} {a : Address} (level : i.level = .given l)
    (task : i.task = .first path .blank) (address : i.daemon setting = .ok a)
    (dial : (w.answer (.dial a)).1 = .ok ())
    (closing : (Client.close.run (i.afterTask a w)).1 = .ok ()) :
    BreaksOff i setting w (.blank .archive)

/-- No error of an exchange makes the program break off. -/
theorem expected_of_raises {α : Type} {d : Dialogue α} {v : World} {e : Error}
    (hd : d.Raises (Error.OfExchange fun _ => True)) (h : (d.run v).1 = .error e) :
    e.isExpected :=
  (hd.run v e h).expected

/-- The program breaks off at an error only if a value was left blank. -/
theorem breaksOff_of_lastError (hw : w.OfSystem (fun _ => True) Binary64.NotInfinite)
    {l : LogLevel} (hlevel : i.level = .given l) {e : Error} (h : i.LastError setting w e)
    (he : e.isExpected = false) : i.BreaksOff setting w e := by
  have hunexpected : ¬ e.isExpected := by simp [he]
  cases h with
  | address h =>
    rw [daemon_eq] at h
    exact absurd (Client.exchange_ofText (T := fun _ => True) _ e h).expected hunexpected
  | @dial a address h =>
    have hconnect : (Client.connect a).Raises (Error.OfExchange fun _ => True) :=
      (Client.exchanges_connect fun _ _ => staysIn_of_mem trivial).raises
    exact absurd (expected_of_raises hconnect h) hunexpected
  | @task a address dial h closing =>
    have hdialed : (afterDial a w).Tells _ _ := (hw.tells_tame fun _ hx => hx).run _
    have hends := (i.task.behaves_dialogue fun _ he => he).run hdialed
      fun _ _ => staysIn_of_mem trivial
    rw [h] at hends
    obtain htame | ⟨rfl, path, htask⟩ := hends.1
    · exact absurd htame.expected hunexpected
    · exact .archive hlevel htask address dial closing
  | closing address dial h =>
    exact absurd (expected_of_raises Client.exchanges_close.raises h) hunexpected

/-- At a blank archive the task fails before it does anything. -/
theorem lastError_of_archive {path : String} {a : Address} (htask : i.task = .first path .blank)
    (haddress : i.daemon setting = .ok a) (hdial : (w.answer (.dial a)).1 = .ok ())
    (hclosing : (Client.close.run (i.afterTask a w)).1 = .ok ()) :
    i.LastError setting w (.blank .archive) := by
  refine .task haddress hdial ?_ hclosing
  rw [htask]
  rfl

/-! ### Three ways to end -/

theorem run_of_breaksOff {e : Error} (h : i.BreaksOff setting w e) :
    (i.run setting time w).1 = .error e := by
  cases h with
  | level level => exact run_of_blank level
  | archive level task address dial closing =>
    have hlast := lastError_of_archive task address dial closing
    exact run_of_unexpected (run_of_lastError level hlast) rfl

/-- The three ways in which the program ends. -/
theorem run_cases (hw : w.OfSystem (fun _ => True) Binary64.NotInfinite) :
    (∃ a o, i.Succeeds setting w a o ∧
      (i.run setting time w).1 = .ok ⟨0, o.render i.json ++ "\n", i.logText setting time w⟩) ∨
    (∃ e, i.LastError setting w e ∧ (i.run setting time w).1 =
      .ok ⟨1, "", i.logText setting time w ++ "rrdc: " ++ e.message ++ "\n"⟩) ∨
    ∃ e, i.BreaksOff setting w e ∧ (i.run setting time w).1 = .error e := by
  rcases hlevel : i.level with l | -
  · rcases hresult : ((i.dialogue setting).run w).1 with e | o
    · have hlast := (run_dialogue_error hlevel).1 hresult
      rcases he : e.isExpected
      · have hbreaks := breaksOff_of_lastError hw hlevel hlast he
        exact .inr (.inr ⟨e, hbreaks, run_of_unexpected hresult he⟩)
      · exact .inr (.inl ⟨e, hlast, run_of_expected hresult he⟩)
    · obtain ⟨a, hsucceeds⟩ := (run_dialogue_ok hlevel).1 hresult
      exact .inl ⟨a, o, hsucceeds, run_of_ok hresult⟩
  · exact .inr (.inr ⟨_, .level hlevel, run_of_breaksOff (.level hlevel)⟩)

/-- A report is that of a success or of the last error. -/
theorem report_cases (hw : w.OfSystem (fun _ => True) Binary64.NotInfinite) {r : Report}
    (hr : (i.run setting time w).1 = .ok r) :
    (∃ a o, i.Succeeds setting w a o ∧
      r = ⟨0, o.render i.json ++ "\n", i.logText setting time w⟩) ∨
    ∃ e, i.LastError setting w e ∧
      r = ⟨1, "", i.logText setting time w ++ "rrdc: " ++ e.message ++ "\n"⟩ := by
  obtain ⟨a, o, hsucceeds, h⟩ | ⟨e, hlast, h⟩ | ⟨e, -, h⟩ := run_cases hw
  · exact .inl ⟨a, o, hsucceeds, Except.ok.inj (hr.symm.trans h)⟩
  · exact .inr ⟨e, hlast, Except.ok.inj (hr.symm.trans h)⟩
  · cases hr.symm.trans h

theorem report_of_succeeds {r : Report} {a : Address} {o : Output}
    (hr : (i.run setting time w).1 = .ok r) (h : i.Succeeds setting w a o) :
    r = ⟨0, o.render i.json ++ "\n", i.logText setting time w⟩ := by
  obtain ⟨l, hlevel⟩ := exists_level hr
  exact Except.ok.inj (hr.symm.trans (run_of_ok (run_of_succeeds hlevel h)))

/-! ### What the program dials and closes -/

theorem run_dialed (i : Invocation) (setting : Option String) (w : World) :
    ((i.dialogue setting).run w).2.dialed = w.dialed ∨
      ∃ a, i.daemon setting = .ok a ∧ ((i.dialogue setting).run w).2.dialed = w.dialed ++ [a] := by
  rcases hlevel : i.level with l | -
  · rcases haddress : i.daemon setting with e | a
    · rw [dialogue_of_level hlevel, haddress]
      exact .inl rfl
    · obtain ⟨later, htrace, hlater⟩ := trace_dialogue (w := w) hlevel haddress
      have hnone : later.flatMap Event.dialed = [] := by
        rw [List.flatMap_eq_nil_iff]
        rintro ⟨b, answer⟩ he
        cases b with
        | dial address => exact absurd rfl (hlater _ he address)
        | readLine | write _ | drain | close | waitClosed | look | log _ => rfl
      refine .inr ⟨a, rfl, ?_⟩
      rw [Dialogue.run_dialed, htrace, List.flatMap_cons, hnone]
      rfl
  · rw [dialogue_of_blank hlevel]
    exact .inl rfl

/-- A dial that succeeded is the one at the start. -/
theorem dialed_of_mem_trace (h : ⟨.dial a, .ok ()⟩ ∈ (i.dialogue setting).trace w) :
    (∃ l, i.level = .given l) ∧ i.daemon setting = .ok a ∧ (w.answer (.dial a)).1 = .ok () := by
  rcases hlevel : i.level with l | -
  · refine ⟨⟨l, rfl⟩, ?_⟩
    rcases haddress : i.daemon setting with e | b
    · rw [dialogue_of_level hlevel, haddress] at h
      exact absurd h List.not_mem_nil
    · obtain ⟨later, htrace, hlater⟩ := trace_dialogue (w := w) hlevel haddress
      rw [htrace] at h
      rcases List.mem_cons.1 h with h | h
      · obtain ⟨hdial, hanswer⟩ := Event.mk.inj h
        obtain rfl := Action.dial.inj hdial
        exact ⟨rfl, (eq_of_heq hanswer).symm⟩
      · exact absurd rfl (hlater _ h a)
  · rw [dialogue_of_blank hlevel] at h
    exact absurd h List.not_mem_nil

/-! ### How the program ends -/

/-- How a run of the program ends. -/
structure Ends (i : Invocation) (setting : Option String) (time : String) (w : World) :
    Prop where
  /-- It dials at most once, and it dials what the address spells. -/
  dials : (i.run setting time w).2.dialed = w.dialed ∨
    ∃ a, i.daemon setting = .ok a ∧ (i.run setting time w).2.dialed = w.dialed ++ [a]
  /-- What it dialed it closes, if it can be closed; then it waits, and does nothing else. -/
  closes : ∀ a, ⟨.dial a, .ok ()⟩ ∈ (i.dialogue setting).trace w → w.closing ≠ .unable →
    (i.run setting time w).2.closed ∧
      ∃ past later, (i.dialogue setting).trace w = past ++ ⟨.close, w.closing⟩ :: later ∧
        (∀ e ∈ past, e.action ≠ .close) ∧ ∀ e ∈ later, e.action.IsQuiet
  /-- It breaks off where a value was left blank, and nowhere else. -/
  breaksOff : ∀ e, (i.run setting time w).1 = .error e ↔ i.BreaksOff setting w e
  /-- Before it breaks off at a blank level, it does nothing. -/
  idle : i.level = .blank → (i.run setting time w).2 = w
  /-- There are two ways to exit. -/
  exits : ∀ r, (i.run setting time w).1 = .ok r → r.exitCode = 0 ∨ r.exitCode = 1
  /-- The exit code is 0 if all went well, and only then. -/
  succeeds : ∀ r, (i.run setting time w).1 = .ok r →
    (r.exitCode = 0 ↔ ∃ a o, i.Succeeds setting w a o)
  /-- The result is printed on a line of its own. -/
  prints : ∀ r a o, (i.run setting time w).1 = .ok r → i.Succeeds setting w a o →
    r.output = o.render i.json ++ "\n"
  /-- Otherwise the error that was raised last is printed, after the log. -/
  complains : ∀ r, (i.run setting time w).1 = .ok r → r.exitCode = 1 →
    r.output = "" ∧ ∃ e, i.LastError setting w e ∧
      r.errors = i.logText setting time w ++ "rrdc: " ++ e.message ++ "\n"

/-- The program always ends so, whatever the daemon sends and whatever fails. -/
theorem ends (i : Invocation) (setting : Option String) (time : String) (w : World)
    (hw : w.OfSystem (fun _ => True) Binary64.NotInfinite) : i.Ends setting time w where
  dials := i.run_dialed setting w
  closes a ha hclosing := by
    obtain ⟨⟨l, hlevel⟩, haddress, hdial⟩ := dialed_of_mem_trace ha
    obtain ⟨past, later, htrace, hpast, hlater⟩ := trace_dialogue_close hlevel haddress hdial
    refine ⟨?_, past, later, htrace, hpast, hlater⟩
    show ((i.dialogue setting).run w).2.closed
    rw [run_closed, htrace]
    simp [Event.closes, hclosing]
  breaksOff e := by
    refine ⟨fun h => ?_, run_of_breaksOff⟩
    obtain ⟨a, o, -, hr⟩ | ⟨e', -, hr⟩ | ⟨e', hbreaks, hr⟩ := run_cases hw
    · cases h.symm.trans hr
    · cases h.symm.trans hr
    · obtain rfl := Except.error.inj (h.symm.trans hr)
      exact hbreaks
  idle hlevel := by
    show ((i.dialogue setting).run w).2 = w
    rw [dialogue_of_blank hlevel]
    rfl
  exits r hr := by
    obtain ⟨a, o, -, rfl⟩ | ⟨e, -, rfl⟩ := report_cases hw hr
    · exact .inl rfl
    · exact .inr rfl
  succeeds r hr := by
    constructor
    · intro hcode
      obtain ⟨a, o, hsucceeds, -⟩ | ⟨e, -, rfl⟩ := report_cases hw hr
      · exact ⟨a, o, hsucceeds⟩
      · cases hcode
    · rintro ⟨a, o, h⟩
      rw [report_of_succeeds hr h]
  prints r a o hr h := by rw [report_of_succeeds hr h]
  complains r hr hcode := by
    obtain ⟨a, o, -, rfl⟩ | ⟨e, hlast, rfl⟩ := report_cases hw hr
    · cases hcode
    · exact ⟨rfl, e, hlast, rfl⟩

/-- Surroundings in which reading fails, and then waiting for the end. -/
def failingTwice : World where
  incoming := []
  clock := ⟨systemReading (.ok (.int 1000)), []⟩
  faults := [⟨.read, 1, .system "reset"⟩, ⟨.waitClosed, 1, .system "broken pipe"⟩]

theorem ends_failingTwice :
    failingTwice.OfSystem (fun _ => True) Binary64.NotInfinite ∧
      Ends ⟨none, false, .given .warning, .ping⟩ none "now" failingTwice := by
  have hw : failingTwice.OfSystem (fun _ => True) Binary64.NotInfinite :=
    .of_still rfl (.whole 1000) fun _ _ => trivial
  exact ⟨hw, ends _ _ _ _ hw⟩

/-- Where both the task and closing fail, the error of closing is printed. -/
example :
    (Invocation.run ⟨none, false, .given .warning, .ping⟩ none "now" failingTwice).1 =
      .ok ⟨1, "", "rrdc: close failed: broken pipe\n"⟩ := by
  decide +kernel

/-- Surroundings in which the daemon answers a request for a time. -/
def answering : World where
  incoming := "0 5\n".toUTF8.toList
  clock := ⟨systemReading (.ok (.int 1000)), []⟩

/-- Not every line that can be carried out ends with a report: an archive may be left blank. -/
theorem not_always_report :
    ¬ ∀ (line : List String) (i : Invocation) (setting : Option String) (time : String)
        (w : World), ofLine line = .ok i → w.OfSystem (fun _ => True) Binary64.NotInfinite →
      ∃ r, (i.run setting time w).1 = .ok r := by
  intro h
  have hline : ofLine ["first", "x", "--archive=--"] =
      .ok ⟨none, false, .given .warning, .first "x" .blank⟩ := by
    decide +kernel
  have hw : answering.OfSystem (fun _ => True) Binary64.NotInfinite :=
    .of_still rfl (.whole 1000) fun _ _ => trivial
  have hrun : (Invocation.run ⟨none, false, .given .warning, .first "x" .blank⟩ none "now"
      answering).1 = .error (.blank .archive) := by
    decide +kernel
  obtain ⟨r, hr⟩ := h _ _ none "now" answering hline hw
  cases hr.symm.trans hrun

end Invocation

end RrdCache
