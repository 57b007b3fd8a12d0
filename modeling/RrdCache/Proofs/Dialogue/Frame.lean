/-
RrdCache/Proofs/Dialogue/Frame.lean

What runs leave alone.  The plan of faults and the way connections close are never changed.
A dialogue that does not read leaves the coming bytes where they are, and one that only
looks at the clock changes nothing but the clock, so that its result is a matter of the
clock alone (`run_of_looks`).
-/
import RrdCache.Proofs.Dialogue.Alike

namespace RrdCache

theorem Clock.look_fst (c : Clock) : c.look.1 = c.next := by
  rw [Clock.look]
  split <;> rfl

namespace World

theorem answer_faults (w : World) (a : Action) : (w.answer a).2.faults = w.faults := by
  cases a with
  | readLine | write _ | drain | waitClosed | dial _ =>
    simp only [answer, use]
    split <;> rfl
  | close | look | log _ => rfl

theorem answer_closing (w : World) (a : Action) : (w.answer a).2.closing = w.closing := by
  cases a with
  | readLine | write _ | drain | waitClosed | dial _ =>
    simp only [answer, use]
    split <;> rfl
  | close | look | log _ => rfl

/-- Only looking changes the clock. -/
theorem answer_clock (w : World) {a : Action} (h : a ≠ .look) :
    (w.answer a).2.clock = w.clock := by
  cases a with
  | readLine | write _ | drain | waitClosed | dial _ =>
    simp only [answer, use]
    split <;> rfl
  | close | log _ => rfl
  | look => exact absurd rfl h

/-- An action leaves no other readings of the clock than there were. -/
theorem answer_readings (w : World) (a : Action) :
    (w.answer a).2.clock.next :: (w.answer a).2.clock.later ⊆ w.clock.next :: w.clock.later := by
  by_cases ha : a = .look
  · subst ha
    show w.clock.look.2.next :: w.clock.look.2.later ⊆ _
    rcases w.clock with ⟨next, - | ⟨r, later⟩⟩
    · exact List.Subset.refl _
    · exact List.subset_cons_self _ _
  · rw [answer_clock w ha]
    exact List.Subset.refl _

/-- A fault that strikes an operation was planned for it. -/
theorem exists_planned {α : Type} {w : World} {op : Operation} {act : World → α × World}
    {f : Fault} (h : (w.use op act).1 = .error f) :
    ∃ p ∈ w.faults, p.operation = op ∧ p.fault = f := by
  rcases hplanned : w.planned? op (w.uses op + 1) with - | f'
  · rw [use_of_none act hplanned] at h
    cases h
  · rw [use_of_fault act hplanned] at h
    obtain rfl := Except.error.inj h
    obtain ⟨p, hfind, rfl⟩ := Option.map_eq_some_iff.1 hplanned
    have hp := List.find?_some hfind
    exact ⟨p, List.mem_of_find?_eq_some hfind, (of_decide_eq_true hp).1, rfl⟩

/-- The world with another clock. -/
def withClock (w : World) (c : Clock) : World :=
  { w with clock := c }

end World

namespace Dialogue

variable {α : Type} {d : Dialogue α}

@[simp] theorem run_faults (d : Dialogue α) (w : World) : (d.run w).2.faults = w.faults := by
  induction d generalizing w with
  | done r => rfl
  | ask a next ih => rw [run, ih, World.answer_faults]

@[simp] theorem run_closing (d : Dialogue α) (w : World) : (d.run w).2.closing = w.closing := by
  induction d generalizing w with
  | done r => rfl
  | ask a next ih => rw [run, ih, World.answer_closing]

/-- A run that does not read leaves the bytes where they are. -/
theorem run_incoming (hd : d.Asks (· ≠ .readLine)) (w : World) :
    (d.run w).2.incoming = w.incoming := by
  have step : ∀ a (v : World), a ≠ .readLine → v.incoming = w.incoming →
      (v.answer a).2.incoming = w.incoming :=
    fun _ _ ha hv => (World.answer_incoming ha).trans hv
  exact run_invariant step hd rfl

/-- A run that does not look leaves the clock where it is. -/
theorem run_clock (hd : d.Asks (· ≠ .look)) (w : World) : (d.run w).2.clock = w.clock := by
  have step : ∀ a (v : World), a ≠ .look → v.clock = w.clock →
      (v.answer a).2.clock = w.clock :=
    fun _ v ha hv => (v.answer_clock ha).trans hv
  exact run_invariant step hd rfl

/-- A dialogue that only looks changes the clock only. -/
theorem run_of_looks (hd : d.Asks (· = .look)) (w v : World) (h : w.clock = v.clock) :
    (d.run w).1 = (d.run v).1 ∧ (d.run w).2 = w.withClock (d.run v).2.clock := by
  induction d generalizing w v with
  | done r => exact ⟨rfl, by rw [run, run, ← h]; rfl⟩
  | ask a next ih =>
    obtain ⟨rfl, hnext⟩ := hd
    have hanswer : (w.answer .look).1 = (v.answer .look).1 := by
      rw [World.answer, World.answer, h]
    have hclock : (w.answer .look).2.clock = (v.answer .look).2.clock := by
      rw [World.answer, World.answer, h]
    rw [run, run, ← hanswer]
    exact ih _ (hnext _) _ _ hclock

end Dialogue

end RrdCache
