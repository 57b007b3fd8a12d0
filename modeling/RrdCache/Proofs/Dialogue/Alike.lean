/-
RrdCache/Proofs/Dialogue/Alike.lean

Two runs in lock step.  Two worlds are alike if their clocks, their ways of closing and
their further faults agree; they may differ in what was done before and in the bytes
that are coming.

Main result (`run_alike`): if a run read whole lines only, so that it took the bytes `own`
off what was coming, then in every world that is alike and that begins with `own` too, the
same dialogue gives the same result with the same trace, and leaves what stood behind
`own`.  A run therefore does not depend on bytes that it did not take.  If bytes are left
over at the end of a run, it can only have read whole lines (`readsWhole_of_left`).
-/
import RrdCache.Proofs.Dialogue.Trace

namespace RrdCache

/-! ### Cutting lines -/

theorem cutLine_append (bytes : List UInt8) :
    (cutLine bytes).1 ++ (cutLine bytes).2 = bytes := by
  induction bytes with
  | nil => rfl
  | cons b bytes ih =>
    rw [cutLine]
    split
    · rfl
    · exact congrArg (b :: ·) ih

/-- A line ends at its first line feed. -/
theorem cutLine_line {body : List UInt8} (h : 10 ∉ body) (rest : List UInt8) :
    cutLine (body ++ 10 :: rest) = (body ++ [10], rest) := by
  induction body with
  | nil => rfl
  | cons b body ih =>
    obtain ⟨hb, hbody⟩ := not_or.1 (mt List.mem_cons.2 h)
    rw [List.cons_append, cutLine, if_neg (Ne.symm hb), ih hbody]
    rfl

/-- What was cut off either is a line, or is all there was. -/
theorem cutLine_cases (bytes : List UInt8) :
    (∃ body, 10 ∉ body ∧ (cutLine bytes).1 = body ++ [10]) ∨
      (10 ∉ bytes ∧ cutLine bytes = (bytes, [])) := by
  induction bytes with
  | nil => exact .inr ⟨List.not_mem_nil, rfl⟩
  | cons b bytes ih =>
    rw [cutLine]
    split
    case isTrue hb => exact .inl ⟨[], List.not_mem_nil, by simp [hb]⟩
    case isFalse hb =>
      rcases ih with ⟨body, hbody, hcut⟩ | ⟨hbytes, hcut⟩
      · refine .inl ⟨b :: body, ?_, by simp [hcut]⟩
        simp [Ne.symm hb, hbody]
      · exact .inr ⟨by simp [Ne.symm hb, hbytes], by simp [hcut]⟩

namespace World

/-- The world with other bytes coming. -/
def withIncoming (w : World) (bytes : List UInt8) : World :=
  { w with incoming := bytes }

@[simp] theorem withIncoming_incoming (w : World) (bytes : List UInt8) :
    (w.withIncoming bytes).incoming = bytes := rfl

theorem answer_readLine_of_fault {w : World} {f : Fault}
    (h : w.planned? .read (w.uses .read + 1) = some f) :
    w.answer .readLine = (.error f, w.counted .read) := by
  rw [answer, use_of_fault _ h]

theorem answer_readLine_of_none {w : World}
    (h : w.planned? .read (w.uses .read + 1) = none) :
    w.answer .readLine = (.ok (cutLine w.incoming).1,
      (w.counted .read).withIncoming (cutLine w.incoming).2) := by
  rw [answer, use_of_none _ h]
  rfl

/-- Only reading takes bytes off what is coming. -/
theorem answer_incoming {w : World} {a : Action} (h : a ≠ .readLine) :
    (w.answer a).2.incoming = w.incoming := by
  cases a with
  | readLine => exact absurd rfl h
  | write _ | drain | waitClosed | dial _ =>
    simp only [answer, use]
    split <;> rfl
  | close | look | log _ => rfl

theorem answer_incoming_suffix (w : World) (a : Action) :
    (w.answer a).2.incoming <:+ w.incoming := by
  by_cases ha : a = .readLine
  · subst ha
    rcases hf : w.planned? .read (w.uses .read + 1) with - | f
    · rw [answer_readLine_of_none hf]
      exact ⟨_, cutLine_append _⟩
    · rw [answer_readLine_of_fault hf]
      exact List.suffix_rfl
  · exact ⟨[], by rw [answer_incoming ha, List.nil_append]⟩

/-! ### Worlds that are alike -/

/-- Two worlds that agree in everything which is still to be met, but for the bytes. -/
structure Alike (w v : World) : Prop where
  clock : w.clock = v.clock
  closing : w.closing = v.closing
  planned : ∀ op n, w.planned? op (w.uses op + n) = v.planned? op (v.uses op + n)

namespace Alike

variable {w v : World}

theorem of_faults_nil (hclock : w.clock = v.clock) (hclosing : w.closing = v.closing)
    (hw : w.faults = []) (hv : v.faults = []) : Alike w v :=
  ⟨hclock, hclosing, fun op n => by simp [planned?, hw, hv]⟩

/-- Using an operation once keeps worlds alike. -/
theorem counted (h : Alike w v) (op : Operation) : Alike (w.counted op) (v.counted op) := by
  refine ⟨h.clock, h.closing, ?_⟩
  intro o n
  by_cases ho : o = op
  · subst ho
    have hn := h.planned o (1 + n)
    simpa only [World.counted, planned?, if_pos, ← Nat.add_assoc] using hn
  · simpa only [World.counted, planned?, if_neg ho] using h.planned o n

/-- Alike worlds answer an operation alike, if they do alike when no fault strikes. -/
theorem use {α : Type} (h : Alike w v) (op : Operation) {f g : World → α × World}
    (hfg : ∀ w v, Alike w v → (f w).1 = (g v).1 ∧ Alike (f w).2 (g v).2) :
    (w.use op f).1 = (v.use op g).1 ∧ Alike (w.use op f).2 (v.use op g).2 := by
  have hplan := h.planned op 1
  rcases hf : w.planned? op (w.uses op + 1) with - | fault
  · obtain ⟨hanswer, hworld⟩ := hfg _ _ (h.counted op)
    rw [use_of_none f hf, use_of_none g (hplan ▸ hf)]
    exact ⟨congrArg Except.ok hanswer, hworld⟩
  · rw [use_of_fault f hf, use_of_fault g (hplan ▸ hf)]
    exact ⟨rfl, h.counted op⟩

/-- Alike worlds answer every action but reading alike. -/
theorem answer (h : Alike w v) {a : Action} (ha : a ≠ .readLine) :
    (w.answer a).1 = (v.answer a).1 ∧ Alike (w.answer a).2 (v.answer a).2 := by
  cases a with
  | readLine => exact absurd rfl ha
  | write line | drain | waitClosed =>
    exact h.use _ fun w v h => ⟨rfl, h.clock, h.closing, h.planned⟩
  | dial address =>
    have hdialed : Alike { w with dialed := w.dialed ++ [address] }
        { v with dialed := v.dialed ++ [address] } := ⟨h.clock, h.closing, h.planned⟩
    exact hdialed.use _ fun w v h => ⟨rfl, h.clock, h.closing, h.planned⟩
  | close => exact ⟨h.closing, h.clock, h.closing, h.planned⟩
  | look =>
    refine ⟨congrArg (fun c => c.look.1) h.clock, ?_, h.closing, h.planned⟩
    exact congrArg (fun c => c.look.2) h.clock
  | log record => exact ⟨rfl, h.clock, h.closing, h.planned⟩

/-- If one of two alike worlds reads a whole line, which the other one begins with too, then
the other reads it as well. -/
theorem answer_readLine (h : Alike w v) {own rest rest' : List UInt8}
    (hw : w.incoming = own ++ rest) (hv : v.incoming = own ++ rest')
    (hwhole : (w.event .readLine).ReadsWhole)
    (hrest : rest <:+ (w.answer .readLine).2.incoming) :
    (w.answer .readLine).1 = (v.answer .readLine).1 ∧
      Alike (w.answer .readLine).2 (v.answer .readLine).2 ∧
      ∃ own', (w.answer .readLine).2.incoming = own' ++ rest ∧
        (v.answer .readLine).2.incoming = own' ++ rest' := by
  have hplan := h.planned .read 1
  rcases hf : w.planned? .read (w.uses .read + 1) with - | fault
  · have hvf : v.planned? .read (v.uses .read + 1) = none := hplan ▸ hf
    simp only [event, answer_readLine_of_none hf, Event.ReadsWhole] at hwhole
    rw [answer_readLine_of_none hf] at hrest
    rw [answer_readLine_of_none hf, answer_readLine_of_none hvf]
    obtain ⟨own', hown'⟩ := hrest
    -- the line that was read stands at the front of `own`, and `own'` behind it
    have hline : ∃ body, 10 ∉ body ∧ (cutLine w.incoming).1 = body ++ [10] := by
      rcases cutLine_cases w.incoming with hline | ⟨hnone, hall⟩
      · exact hline
      · rw [hall] at hwhole
        exact absurd (List.mem_of_getLast? hwhole) hnone
    obtain ⟨body, hbody, hcut⟩ := hline
    have hsplit : own = (body ++ [10]) ++ own' := by
      have hcat := cutLine_append w.incoming
      have hown' : own' ++ rest = (cutLine w.incoming).2 := hown'
      rw [hcut, ← hown', hw, ← List.append_assoc] at hcat
      exact (List.append_cancel_right hcat).symm
    have hvcut : cutLine v.incoming = (body ++ [10], own' ++ rest') := by
      rw [hv, hsplit]
      simpa using cutLine_line hbody (own' ++ rest')
    refine ⟨by rw [hcut, hvcut], ?_, own', hown'.symm, by simp [hvcut]⟩
    exact ⟨h.clock, h.closing, (h.counted .read).planned⟩
  · rw [answer_readLine_of_fault hf, answer_readLine_of_fault (hplan ▸ hf)]
    exact ⟨rfl, h.counted .read, own, hw, hv⟩

end Alike

end World

/-! ### Runs in lock step -/

namespace Dialogue

variable {α : Type}

theorem run_incoming_suffix (d : Dialogue α) (w : World) :
    (d.run w).2.incoming <:+ w.incoming := by
  induction d generalizing w with
  | done r => exact List.suffix_rfl
  | ask a next ih => exact (ih _ _).trans (w.answer_incoming_suffix a)

/-- A run depends on the bytes that it takes, and on no others. -/
theorem run_alike (d : Dialogue α) {w v : World} {own rest rest' : List UInt8}
    (h : World.Alike w v) (hw : w.incoming = own ++ rest) (hv : v.incoming = own ++ rest')
    (hleft : (d.run w).2.incoming = rest) (hwhole : ∀ e ∈ d.trace w, e.ReadsWhole) :
    (d.run w).1 = (d.run v).1 ∧ d.trace w = d.trace v ∧
      (d.run v).2.incoming = rest' ∧ World.Alike (d.run w).2 (d.run v).2 := by
  induction d generalizing w v own with
  | done r =>
    have hown : own = [] := by
      have hnil : own ++ rest = [] ++ rest := hw.symm.trans hleft
      exact List.append_cancel_right hnil
    exact ⟨rfl, rfl, by simpa [hown] using hv, h⟩
  | ask a next ih =>
    obtain ⟨hfirst, hlater⟩ := List.forall_mem_cons.1 hwhole
    -- the first action: a line that is read is one that both begin with, and any other answer
    -- has nothing to do with the bytes
    have hstep : (w.answer a).1 = (v.answer a).1 ∧
        World.Alike (w.answer a).2 (v.answer a).2 ∧
        ∃ own', (w.answer a).2.incoming = own' ++ rest ∧
          (v.answer a).2.incoming = own' ++ rest' := by
      by_cases ha : a = .readLine
      · subst ha
        have hsuffix := (next (w.answer .readLine).1).run_incoming_suffix
          (w.answer .readLine).2
        rw [run] at hleft
        exact h.answer_readLine hw hv hfirst (hleft ▸ hsuffix)
      · obtain ⟨hanswer, hworld⟩ := h.answer ha
        rw [World.answer_incoming ha, World.answer_incoming ha]
        exact ⟨hanswer, hworld, own, hw, hv⟩
    obtain ⟨hanswer, hworld, own', hw', hv'⟩ := hstep
    obtain ⟨hresult, htrace, hrest, hafter⟩ := ih _ hworld hw' hv' hleft hlater
    rw [run, run, trace, trace, World.event, World.event, ← hanswer]
    exact ⟨hresult, congrArg _ htrace, hrest, hafter⟩

/-- A run that leaves bytes over has read whole lines only. -/
theorem readsWhole_of_left (d : Dialogue α) {w : World}
    (hleft : (d.run w).2.incoming ≠ []) : ∀ e ∈ d.trace w, e.ReadsWhole := by
  induction d generalizing w with
  | done r => simp
  | ask a next ih =>
    refine List.forall_mem_cons.2 ⟨?_, ih _ hleft⟩
    by_cases ha : a = .readLine
    · subst ha
      rcases hf : w.planned? .read (w.uses .read + 1) with - | fault
      · rcases cutLine_cases w.incoming with ⟨body, -, hcut⟩ | ⟨-, hall⟩
        · simp [World.event, World.answer_readLine_of_none hf, Event.ReadsWhole, hcut]
        · -- all bytes are read, so that none is left at the end
          have hsuffix := (next (w.answer .readLine).1).run_incoming_suffix
            (w.answer .readLine).2
          have hempty : (w.answer .readLine).2.incoming = [] := by
            simp [World.answer_readLine_of_none hf, hall]
          rw [hempty, List.suffix_nil] at hsuffix
          exact absurd hsuffix hleft
      · simp [World.event, World.answer_readLine_of_fault hf, Event.ReadsWhole]
    · cases a with
      | readLine => exact absurd rfl ha
      | write _ | drain | close | waitClosed | dial _ | look | log _ => trivial

end Dialogue

end RrdCache
