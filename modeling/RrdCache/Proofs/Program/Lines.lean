/-
RrdCache/Proofs/Program/Lines.lean

What the program prints, line by line.  A daemon can send any bytes: it cannot make the
program print a line of the daemon's own.  Each record that is kept is one line of the second
stream, the error at the end is one more, and a result that is printed as a literal is one line
of the first.  All that is needed is that the texts which do not come from the daemon have no
line breaks: the address, the texts of faults and of a clock that cannot be read, and the time
in front of the records.

Main result (`Invocation.reports_inLines`).
-/
import RrdCache.Proofs.Program.Stages

namespace RrdCache

open Dialogue

/-! ### Lines -/

/-- A text without line breaks, and one line feed after it. -/
def IsLine (s : String) : Prop :=
  ∃ body, OneLine body ∧ s = body ++ "\n"

/-- The line feed of a line is its last character, and there is no other line break. -/
theorem IsLine.mem_dropLast {s : String} (h : IsLine s) {c : Char} (hc : c ∈ s.toList.dropLast) :
    c ≠ '\r' ∧ c ≠ '\n' := by
  obtain ⟨body, hbody, rfl⟩ := h
  rw [String.toList_append] at hc
  exact hbody c (by simpa using hc)

theorem LogRecord.isLine_line {time : String} (htime : OneLine time) {r : LogRecord}
    (hr : OneLine r.text) : IsLine (r.line time) := by
  have hword : OneLine r.level.word := by
    cases r.level <;> exact .ofList (by decide)
  exact ⟨_, (htime.joined (by decide) hword).joined (by decide) hr, rfl⟩

theorem isLine_logLines {time : String} (htime : OneLine time) {level : Slot LogLevel}
    {log : List LogRecord} (hlog : ∀ r ∈ log, OneLine r.text) :
    ∀ line ∈ logLines time level log, IsLine line := by
  intro line hline
  obtain ⟨r, hr, rfl⟩ := List.mem_map.1 hline
  exact r.isLine_line htime (hlog r (List.mem_of_mem_filter hr))

/-! ### Results -/

/-- What is printed for an outcome is one line, unless it is printed as JSON. -/
theorem Outcome.oneLine_render {done : String} (hdone : OneLine done) (outcome : Outcome) :
    OneLine ((outcome.output done).render false) := by
  cases outcome with
  | nothing => exact hdone
  | time _ | texts _ | help _ _ | stats _ | queue _ | batch _ | table _ =>
    exact Output.oneLine_literal _

theorem Task.oneLine_doneText (t : Task) : OneLine t.doneText := by
  cases t <;> exact .ofList (by decide)

/-! ### Reports -/

/-- A report that prints lines only: one for each record, one for the error if there is one,
and one for the result if there is one.  A result that is JSON may have more. -/
structure Report.InLines (json : Bool) (log : List String) (r : Report) : Prop where
  errors : ∃ last, r.errors = String.join (log ++ last) ∧ (∀ line ∈ log ++ last, IsLine line) ∧
    (r.exitCode = 1 → ∃ message, last = ["rrdc: " ++ message ++ "\n"]) ∧
    (r.exitCode ≠ 1 → last = [])
  output : r.exitCode = 0 → json = false → IsLine r.output

namespace Invocation

variable {i : Invocation} {setting : Option String} {time : String} {w : World}

/-- In such surroundings the program ends with messages of one line, and keeps such records. -/
theorem run_oneLine (hw : w.OfSystem OneLine fun _ => True)
    (hlog : ∀ record ∈ w.log, OneLine record.text) (haddress : OneLine (i.addressText setting)) :
    EndsIn (fun e => OneLine e.message)
        (fun o => ∃ outcome, o = Outcome.output i.task.doneText outcome)
        ((i.dialogue setting).run w).1 ∧
      ∀ record ∈ ((i.dialogue setting).run w).2.log, OneLine record.text := by
  have hT (t : String) (ht : OneLine t) : OneLine t := ht
  have hbehaves : (i.dialogue setting).Behaves OneLine _ _ _ :=
    behaves_dialogue (fun _ he => he.bare) haddress.staysIn
  obtain ⟨hends, hrecords⟩ := hbehaves.run hw.tells_bare fun record hr => (hlog record hr).staysIn
  refine ⟨hends.mono ?_, fun record hr => hrecords record hr hT⟩
  rintro e (hbare | ⟨-, rfl⟩ | ⟨rfl, -⟩)
  · exact Error.oneLine_message fun t ht => hbare t ht hT
  · exact Error.oneLine_message (by simp [Error.bare])
  · exact Error.oneLine_message (by simp [Error.bare])

/-- A daemon cannot make the program print a line of its own: each record is one line, also if
the program breaks off, and so are the error and the result of a report. -/
theorem reports_inLines (i : Invocation) (setting : Option String) (time : String) (w : World)
    (hw : w.OfSystem OneLine fun _ => True) (hlog : ∀ record ∈ w.log, OneLine record.text)
    (htime : OneLine time) (haddress : OneLine (i.addressText setting)) :
    (∀ line ∈ i.printed setting time w, IsLine line) ∧
      ∀ r, (i.run setting time w).1 = .ok r → r.InLines i.json (i.printed setting time w) := by
  obtain ⟨hends, hrecords⟩ := run_oneLine hw hlog haddress
  have hprinted : ∀ line ∈ i.printed setting time w, IsLine line :=
    isLine_logLines htime hrecords
  refine ⟨hprinted, fun r hr => ?_⟩
  rcases hresult : ((i.dialogue setting).run w).1 with e | o
  · rw [hresult] at hends
    rcases he : e.isExpected
    · cases hr.symm.trans (run_of_unexpected hresult he)
    · obtain rfl := Except.ok.inj (hr.symm.trans (run_of_expected hresult he))
      have hlast : IsLine ("rrdc: " ++ e.message ++ "\n") :=
        ⟨_, OneLine.append (.ofList (by decide)) hends, rfl⟩
      refine ⟨⟨["rrdc: " ++ e.message ++ "\n"], ?_, ?_, fun _ => ⟨_, rfl⟩, fun h => ?_⟩, ?_⟩
      · simp [logText, String.append_assoc]
      · simpa [or_imp, forall_and] using ⟨hprinted, hlast⟩
      · exact absurd rfl h
      · rintro ⟨⟩
  · rw [hresult] at hends
    obtain rfl := Except.ok.inj (hr.symm.trans (run_of_ok hresult))
    obtain ⟨outcome, rfl⟩ := hends
    refine ⟨⟨[], ?_, ?_, fun h => ?_, fun _ => rfl⟩, fun _ hjson => ?_⟩
    · simp [logText]
    · simpa using hprinted
    · cases h
    · rw [hjson]
      exact ⟨_, outcome.oneLine_render i.task.oneLine_doneText, rfl⟩

/-- Surroundings in which the daemon sends a line break inside a line. -/
def forging : World where
  incoming := "1 ok\na\rrrdc: forged\n".toUTF8.toList
  clock := ⟨systemReading (.ok (.int 1000)), []⟩

theorem forged_inLines :
    forging.OfSystem OneLine (fun _ => True) ∧
      Report.InLines false (printed ⟨some "/run/d", false, .given .warning, .info "x"⟩ none "now"
        forging) ⟨0, "['a\\rrrdc: forged']\n", ""⟩ := by
  have hw : forging.OfSystem OneLine fun _ => True :=
    .of_still rfl (.whole 1000) fun _ hp => absurd hp List.not_mem_nil
  have haddress : OneLine (String.ofList "/run/d".toList) := .ofList (by decide)
  obtain ⟨-, hreports⟩ := reports_inLines ⟨some "/run/d", false, .given .warning, .info "x"⟩ none
    "now" forging hw (fun _ hr => absurd hr List.not_mem_nil) (.ofList (by decide)) haddress
  exact ⟨hw, hreports _ (by decide +kernel)⟩

/-- Surroundings that refuse a connection. -/
def refusing : World where
  incoming := []
  clock := ⟨systemReading (.ok (.int 1000)), []⟩
  faults := [⟨.dial, 1, .system "refused"⟩]

/-- The address of the command line matters as well as the one of the environment. -/
theorem not_inLines_of_setting :
    ¬ ∀ (line : List String) (i : Invocation) (setting : Option String) (time : String)
        (w : World), ofLine line = .ok i → (∀ s, setting = some s → OneLine s) →
      w.OfSystem OneLine (fun _ => True) → (∀ record ∈ w.log, OneLine record.text) →
      OneLine time → ∀ r, (i.run setting time w).1 = .ok r →
        r.InLines i.json (i.printed setting time w) := by
  intro h
  have hline : ofLine ["--address", "a\nb", "ping"] =
      .ok ⟨some "a\nb", false, .given .warning, .ping⟩ := by
    decide +kernel
  have hw : refusing.OfSystem OneLine fun _ => True := by
    refine .of_still rfl (.whole 1000) fun p hp => ?_
    rw [List.mem_singleton.1 hp]
    exact .ofList (by decide)
  have hrun : (Invocation.run ⟨some "a\nb", false, .given .warning, .ping⟩ none "now"
      refusing).1 = .ok ⟨1, "", "rrdc: unable to connect to a\nb:42217: refused\n"⟩ := by
    decide +kernel
  have hprinted :
      printed ⟨some "a\nb", false, .given .warning, .ping⟩ none "now" refusing = [] := by
    decide +kernel
  obtain ⟨last, herrors, hlines, hone, -⟩ := (h _ _ none "now" refusing hline (by simp) hw
    (fun _ hr => absurd hr List.not_mem_nil) (.ofList (by decide)) _ hrun).errors
  obtain ⟨message, rfl⟩ := hone rfl
  rw [hprinted, List.nil_append, String.join_cons, String.join_nil, String.append_empty] at herrors
  have hmessage := hlines ("rrdc: " ++ message ++ "\n") (by simp)
  rw [← herrors] at hmessage
  exact (hmessage.mem_dropLast (c := '\n') (by decide)).2 rfl

end Invocation

end RrdCache
