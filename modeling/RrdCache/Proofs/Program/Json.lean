/-
RrdCache/Proofs/Program/Json.lean

What the program prints as JSON.  A program that exits with 0 performed the call of its task, and
prints what the call gave.  In JSON that is one text and a line feed, whatever the daemon sent,
but for one thing: an infinite value in the rows of a table is printed as a word that JSON does
not have.  Values that are no number at all are printed as missing, so they do no harm.

Main result (`Invocation.json_output_iff`).
-/
import RrdCache.Proofs.Json.Output
import RrdCache.Proofs.Program.Stages

namespace RrdCache

open Dialogue

/-! ### Outcomes -/

/-- No value in the rows of a table is infinite. -/
def Outcome.NoInfinity : Outcome → Prop
  | table t => ∀ row ∈ t.rows, ∀ x ∈ row.values, x.NotInfinite
  | _ => True

namespace Output

theorem allFinite_iff {items : List Output} : allFinite items ↔ ∀ o ∈ items, o.isFinite := by
  induction items with
  | nil => simp [allFinite]
  | cons o rest ih => rw [allFinite, Bool.and_eq_true, ih, List.forall_mem_cons]

theorem fieldsFinite_iff {fields : List (String × Output)} :
    fieldsFinite fields ↔ ∀ f ∈ fields, f.2.isFinite := by
  induction fields with
  | nil => simp [fieldsFinite]
  | cons f rest ih =>
    obtain ⟨key, o⟩ := f
    rw [fieldsFinite, Bool.and_eq_true, ih, List.forall_mem_cons]

theorem allFinite_texts (lines : List String) : allFinite (lines.map text) := by
  rw [allFinite_iff]
  simp [isFinite]

/-- A value that is no number is missing, so only infinities are not finite. -/
theorem isFinite_ofNumber {x : Binary64} : (ofNumber x).isFinite ↔ x.NotInfinite := by
  cases x with
  | nan => simp [ofNumber, Binary64.isNaN, isFinite, Binary64.NotInfinite]
  | infinite negative =>
    simp [ofNumber, Binary64.isNaN, isFinite, Binary64.isFinite, Binary64.NotInfinite]
  | finite negative m =>
    simp [ofNumber, Binary64.isNaN, isFinite, Binary64.isFinite, Binary64.NotInfinite]

theorem isFinite_ofRow {row : Row} : (ofRow row).isFinite ↔ ∀ x ∈ row.values, x.NotInfinite := by
  simp only [ofRow, isFinite, allFinite, Bool.true_and, Bool.and_true, allFinite_iff,
    List.forall_mem_map, isFinite_ofNumber]

theorem isFinite_ofTable {t : Table} :
    (ofTable t).isFinite ↔ ∀ row ∈ t.rows, ∀ x ∈ row.values, x.NotInfinite := by
  simp only [ofTable, isFinite, fieldsFinite, allFinite_texts, Bool.true_and, Bool.and_true,
    allFinite_iff, List.forall_mem_map, isFinite_ofRow]

end Output

/-- What is printed for an outcome is finite if the outcome has no infinite values. -/
theorem Outcome.isFinite_output (done : String) (outcome : Outcome) :
    (outcome.output done).isFinite ↔ outcome.NoInfinity := by
  cases outcome with
  | table t => exact Output.isFinite_ofTable
  | nothing | time _ => exact iff_of_true rfl trivial
  | texts lines => exact iff_of_true (Output.allFinite_texts lines) trivial
  | help headline lines => exact iff_of_true (Output.allFinite_texts (headline :: lines)) trivial
  | stats all =>
    refine iff_of_true (Output.fieldsFinite_iff.2 ?_) trivial
    simp [Output.ofStatistic, Output.isFinite]
  | queue entries =>
    refine iff_of_true (Output.allFinite_iff.2 ?_) trivial
    simp [Output.ofQueueEntry, Output.isFinite, Output.fieldsFinite]
  | batch o =>
    refine iff_of_true (Output.fieldsFinite_iff.2 ?_) trivial
    simp [Output.isFinite, Output.allFinite_texts]

/-- An exchange that succeeded read its outcome off a reply. -/
theorem Course.exists_reply {encode : Dialogue String} {decode : Reply → Except Error Outcome}
    {w : World} {outcome : Outcome}
    (h : ((exchanging encode decode).run w).1 = .ok outcome) :
    ∃ reply, decode reply = .ok outcome := by
  obtain ⟨_, -, h⟩ := run_bind_eq_ok.1 h
  obtain ⟨reply, -, h⟩ := run_bind_eq_ok.1 h
  exact ⟨reply, h⟩

theorem noInfinity_of_map {α : Type} {f : α → Outcome} (hf : ∀ a, (f a).NoInfinity)
    {x : Except Error α} {outcome : Outcome} (h : f <$> x = .ok outcome) : outcome.NoInfinity := by
  obtain ⟨a, -, rfl⟩ := Result.map_eq_ok.1 h
  exact hf a

/-- Only a table can have infinite values, and only a fetch gives one. -/
theorem Task.noInfinity {t : Task} {c : Call} (hc : t.call = .ok c) (hfetch : ∀ q, c ≠ .fetch q)
    {w : World} {outcome : Outcome} (h : (c.dialogue.run w).1 = .ok outcome) :
    outcome.NoInfinity := by
  rw [Call.dialogue_eq] at h
  cases t with
  | fetch path consolidation start finish columns =>
    cases consolidation with
    | given f => exact absurd (Except.ok.inj hc).symm (hfetch _)
    | blank => cases hc
  | first path archive =>
    cases archive with
    | given i =>
      obtain rfl := Except.ok.inj hc
      obtain ⟨reply, hreply⟩ := Course.exists_reply h
      refine noInfinity_of_map ?_ hreply
      exact fun _ => trivial
    | blank => cases hc
  | last _ | queue | stats =>
    obtain rfl := Except.ok.inj hc
    obtain ⟨reply, hreply⟩ := Course.exists_reply h
    refine noInfinity_of_map ?_ hreply
    exact fun _ => trivial
  | info _ | pending _ | list _ _ | flush _ | flushAll | update _ _ _ =>
    obtain rfl := Except.ok.inj hc
    obtain ⟨reply, hreply⟩ := Course.exists_reply h
    obtain rfl := Except.ok.inj hreply
    trivial
  | ping =>
    obtain rfl := Except.ok.inj hc
    obtain ⟨reply, hreply⟩ := Course.exists_reply h
    rw [Reply.expected] at hreply
    split at hreply
    · obtain rfl := Except.ok.inj hreply
      trivial
    · cases hreply

namespace Invocation

variable {i : Invocation} {setting : Option String} {time : String} {a : Address} {w : World}

/-- A task that succeeded is a call, and its result is what is printed of the outcome. -/
theorem Succeeds.exists_outcome {o : Output} (h : i.Succeeds setting w a o) :
    ∃ c outcome, i.task.call = .ok c ∧ (c.dialogue.run (afterDial a w)).1 = .ok outcome ∧
      o = outcome.output i.task.doneText := by
  obtain ⟨c, hc, hmap⟩ := run_bind_eq_ok.1 h.task
  rw [run_map] at hmap
  obtain ⟨outcome, houtcome, rfl⟩ := Result.map_eq_ok.1 hmap
  exact ⟨c, outcome, hc, houtcome, rfl⟩

/-- A program that exits with 0 and prints JSON prints one text and a line feed, unless its call is
a fetch whose table has infinite values; then it does not. -/
theorem json_output_iff (i : Invocation) (setting : Option String) (time : String) (w : World)
    (hjson : i.json) (r : Report) (hr : (i.run setting time w).1 = .ok r) (hcode : r.exitCode = 0) :
    ∃ a c outcome text, i.daemon setting = .ok a ∧ i.task.call = .ok c ∧
      (c.dialogue.run (afterDial a w)).1 = .ok outcome ∧ r.output = text ++ "\n" ∧
      (Json.IsText text.toList ↔ outcome.NoInfinity) ∧
      ((∀ query, c ≠ .fetch query) → Json.IsText text.toList) := by
  rcases hresult : ((i.dialogue setting).run w).1 with e | o
  · rcases he : e.isExpected
    · cases hr.symm.trans (run_of_unexpected hresult he)
    · obtain rfl := Except.ok.inj (hr.symm.trans (run_of_expected hresult he))
      cases hcode
  · obtain rfl := Except.ok.inj (hr.symm.trans (run_of_ok hresult))
    obtain ⟨l, hlevel⟩ := exists_level hr
    obtain ⟨a, hsucceeds⟩ := (run_dialogue_ok hlevel).1 hresult
    obtain ⟨c, outcome, hcall, houtcome, rfl⟩ := hsucceeds.exists_outcome
    have htext : Json.IsText ((outcome.output i.task.doneText).json 0).toList ↔
        outcome.NoInfinity := by
      rw [Output.isText_json_iff, outcome.isFinite_output]
    refine ⟨a, c, outcome, (outcome.output i.task.doneText).json 0, hsucceeds.address, hcall,
      houtcome, ?_, htext, fun hfetch => htext.2 (Task.noInfinity hcall hfetch houtcome)⟩
    rw [hjson]
    rfl

/-- Surroundings in which the daemon sends a row with an infinite value. -/
def sendingInfinity : World where
  incoming := "1 ok\n1: inf\n".toUTF8.toList
  clock := ⟨systemReading (.ok (.int 1000)), []⟩

/-- What the program prints of it. -/
def infinityPrinted : String :=
  "\x7b\n  \"flush_version\": 0,\n  \"start\": 0,\n  \"end\": 0,\n  \"step\": 0,\n" ++
    "  \"ds_names\": [],\n  \"rows\": [\n    [\n      1,\n      [\n        Infinity\n" ++
    "      ]\n    ]\n  ]\n\x7d"

theorem run_sendingInfinity :
    (Invocation.run ⟨none, true, .given .warning,
      .fetch "x" (.given .average) none none none⟩ none "now" sendingInfinity).1 =
        .ok ⟨0, infinityPrinted ++ "\n", ""⟩ := by
  decide +kernel

/-- The condition on a run whose table has an infinite value. -/
theorem json_output_infinity :
    ∃ a c outcome text,
      daemon ⟨none, true, .given .warning, .fetch "x" (.given .average) none none none⟩ none
        = .ok a ∧
      Task.call (.fetch "x" (.given .average) none none none) = .ok c ∧
      (c.dialogue.run (afterDial a sendingInfinity)).1 = .ok outcome ∧
      infinityPrinted ++ "\n" = text ++ "\n" ∧
      (Json.IsText text.toList ↔ outcome.NoInfinity) ∧
      ((∀ query, c ≠ .fetch query) → Json.IsText text.toList) :=
  json_output_iff ⟨none, true, .given .warning, .fetch "x" (.given .average) none none none⟩ none
    "now" sendingInfinity rfl _ run_sendingInfinity rfl

/-- Not all that is printed as JSON is one text: a row may hold an infinite value. -/
theorem not_always_json :
    ¬ ∀ (line : List String) (i : Invocation) (setting : Option String) (time : String)
        (w : World), ofLine line = .ok i → i.json →
      w.OfSystem (fun _ => True) Binary64.NotInfinite →
      ∀ r, (i.run setting time w).1 = .ok r → r.exitCode = 0 →
        ∃ text, r.output = text ++ "\n" ∧ Json.IsText text.toList := by
  intro h
  have hline : ofLine ["--json", "fetch", "x"] =
      .ok ⟨none, true, .given .warning, .fetch "x" (.given .average) none none none⟩ := by
    decide +kernel
  have hw : sendingInfinity.OfSystem (fun _ => True) Binary64.NotInfinite :=
    .of_still rfl (.whole 1000) fun _ _ => trivial
  obtain ⟨text, hprinted, htext⟩ :=
    h _ _ none "now" sendingInfinity hline rfl hw _ run_sendingInfinity rfl
  have hsame : infinityPrinted.toList = text.toList := by
    have hlists := congrArg String.toList hprinted
    simpa using hlists
  -- the first letter of the word stands outside the strings
  have hletter : 'I' ∈ Json.outside .outside infinityPrinted.toList := by
    decide +kernel
  rw [hsame] at hletter
  exact absurd (htext.outside_subset hletter) (by decide)

end Invocation

end RrdCache
