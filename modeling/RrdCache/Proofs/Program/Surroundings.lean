/-
RrdCache/Proofs/Program/Surroundings.lean

The surroundings of the program.  In surroundings `OfSystem` the clock is the system's, and all
texts that a fault or the clock can tell are in a class; nothing is said of what the daemon
sends.  A dialogue that `Behaves` ends with errors or values of two classes there, and all the
records that it keeps are tame.

Main result (`Dialogue.Behaves.run`).
-/
import RrdCache.Proofs.Dialogue.Frame
import RrdCache.Proofs.Error.Tame

namespace RrdCache

open Error (Tame)

variable {T : String → Prop} {N : Binary64 → Prop} {R : Error → Prop} {α : Type}

/-! ### The clock -/

/-- A number that is not infinite. -/
def Binary64.NotInfinite (x : Binary64) : Prop :=
  ∀ negative, x ≠ .infinite negative

/-- A reading of the system's clock, which may not be readable; the text of its failure is in
one class, and the number that it shows in another. -/
inductive Reading.IsSystem (T : String → Prop) (N : Binary64 → Prop) : Reading → Prop
  | unreadable {t : String} (told : T t) : IsSystem T N (systemReading (.error t))
  | whole (i : Int) : IsSystem T N (systemReading (.ok (.int i)))
  | float {x : Binary64} (shown : N x) : IsSystem T N (systemReading (.ok (.float x)))

/-- A reading is a whole number, or an error of a class. -/
def Reading.IsWhole (R : Error → Prop) (r : Reading) : Prop :=
  EndsIn R (fun v => ∃ i, v = .int i) r

/-- Only an infinite number has no whole part in a way that is not expected. -/
theorem endsIn_wholeSeconds (x : Binary64) :
    EndsIn (fun e => e.bare = [] ∧ (x.NotInfinite → e.isExpected)) (fun _ => True)
      (liftNumeral (wholeSeconds (.float x))) := by
  cases x with
  | nan => exact ⟨rfl, fun _ => rfl⟩
  | infinite negative => exact ⟨rfl, fun h => absurd rfl (h negative)⟩
  | finite negative m => trivial

/-- A look at the system's clock gives a whole number, or an error that the program expects as
long as no number is infinite; and what the error shows stays in the class. -/
theorem Reading.IsSystem.isWhole {r : Reading} (h : r.IsSystem T N) :
    r.IsWhole fun e =>
      (∀ t ∈ e.bare, StaysIn T t) ∧ ((∀ x, N x → x.NotInfinite) → e.isExpected) := by
  cases h with
  | unreadable told =>
    exact ⟨List.forall_mem_singleton.2 (staysIn_of_mem told), fun _ => rfl⟩
  | whole i =>
    rw [systemReading]
    split
    · exact ⟨i, rfl⟩
    · exact ⟨by simp [Error.bare], fun _ => rfl⟩
  | @float x shown =>
    rw [systemReading]
    split
    · refine ((endsIn_wholeSeconds x).mono ?_).map fun i _ => ⟨i, rfl⟩
      rintro e ⟨hbare, hexpected⟩
      exact ⟨by simp [hbare], fun hN => hexpected (hN x shown)⟩
    · exact ⟨by simp [Error.bare], fun _ => rfl⟩

/-! ### Surroundings -/

/-- The surroundings are the system's: all texts that a fault or the clock can tell are in one
class, and all numbers that the clock can show in another. -/
structure World.OfSystem (T : String → Prop) (N : Binary64 → Prop) (w : World) : Prop where
  faults : ∀ p ∈ w.faults, T p.fault.text
  clock : ∀ r ∈ w.clock.next :: w.clock.later, Reading.IsSystem T N r

/-- All texts that a fault can tell are in one class, and the clock gives whole numbers, or
errors of another. -/
structure World.Tells (T : String → Prop) (R : Error → Prop) (w : World) : Prop where
  faults : ∀ p ∈ w.faults, T p.fault.text
  clock : ∀ r ∈ w.clock.next :: w.clock.later, Reading.IsWhole R r

/-- Surroundings whose clock stands still. -/
theorem World.OfSystem.of_still {w : World} {r : Reading} (hclock : w.clock = ⟨r, []⟩)
    (hr : r.IsSystem T N) (hfaults : ∀ p ∈ w.faults, T p.fault.text) : w.OfSystem T N where
  faults := hfaults
  clock := by
    rw [hclock]
    exact List.forall_mem_singleton.2 hr

theorem World.OfSystem.tells_tame {w : World} (hw : w.OfSystem T N)
    (hN : ∀ x, N x → x.NotInfinite) : w.Tells T (Tame T) where
  faults := hw.faults
  clock r hr := (hw.clock r hr).isWhole.mono fun _ he => ⟨he.2 hN, he.1⟩

theorem World.OfSystem.tells_bare {w : World} (hw : w.OfSystem T N) :
    w.Tells T fun e => ∀ t ∈ e.bare, StaysIn T t where
  faults := hw.faults
  clock r hr := (hw.clock r hr).isWhole.mono fun _ he => he.1

/-- An answer that is met in such surroundings. -/
def Event.Tells (T : String → Prop) (R : Error → Prop) : Event → Prop
  | ⟨.look, reading⟩ => Reading.IsWhole R reading
  | e => e.TellsFault T

theorem Event.Tells.tellsFault {e : Event} (h : e.Tells T R) : e.TellsFault T := by
  obtain ⟨a, answer⟩ := e
  cases a with
  | look => trivial
  | readLine | write _ | drain | close | waitClosed | dial _ | log _ => exact h

namespace World.Tells

variable {w : World}

theorem use_error (hw : w.Tells T R) {β : Type} {op : Operation} {act : World → β × World}
    {f : Fault} (h : (w.use op act).1 = .error f) : T f.text := by
  obtain ⟨p, hp, -, rfl⟩ := exists_planned h
  exact hw.faults p hp

/-- Such surroundings give such answers. -/
theorem event (hw : w.Tells T R) (a : Action) : (w.event a).Tells T R := by
  cases a with
  | readLine | write _ | drain | waitClosed =>
    rw [World.event]
    rcases h : (w.answer _).1 with f | -
    · exact hw.use_error h
    · trivial
  | dial address =>
    have hdialed : World.Tells T R { w with dialed := w.dialed ++ [address] } :=
      ⟨hw.faults, hw.clock⟩
    rw [World.event]
    rcases h : (w.answer (.dial address)).1 with f | -
    · exact hdialed.use_error h
    · trivial
  | look =>
    show Reading.IsWhole R w.clock.look.1
    rw [Clock.look_fst]
    exact hw.clock _ List.mem_cons_self
  | close | log _ => trivial

theorem answer (hw : w.Tells T R) (a : Action) : (w.answer a).2.Tells T R where
  faults := by
    rw [World.answer_faults]
    exact hw.faults
  clock r hr := hw.clock r (w.answer_readings a hr)

/-- A run leaves such surroundings behind. -/
theorem run (hw : w.Tells T R) (d : Dialogue α) : (d.run w).2.Tells T R := by
  induction d generalizing w with
  | done r => exact hw
  | ask a next ih => exact ih _ (hw.answer a)

end World.Tells

/-! ### Behaviour -/

/-- In such surroundings a dialogue ends with an error of one class or a value of another, and
it keeps tame records only. -/
abbrev Dialogue.Behaves (T : String → Prop) (R raises : Error → Prop) (gives : α → Prop)
    (d : Dialogue α) : Prop :=
  d.Ensures (Event.Tells T R) (Action.IsTame T) raises gives

/-- All records that were kept are tame. -/
def World.LogsTame (T : String → Prop) (w : World) : Prop :=
  ∀ record ∈ w.log, StaysIn T record.text

theorem World.LogsTame.answer {w : World} (hw : w.LogsTame T) {a : Action} (ha : a.IsTame T) :
    (w.answer a).2.LogsTame T := by
  intro record hrecord
  rw [World.answer_log] at hrecord
  rcases List.mem_append.1 hrecord with hrecord | hrecord
  · exact hw record hrecord
  · cases a with
    | log record' =>
      obtain rfl := List.mem_singleton.1 hrecord
      exact ha
    | readLine | write _ | drain | close | waitClosed | dial _ | look =>
      cases List.not_mem_nil hrecord

/-- A run in such surroundings ends as its dialogue does, and keeps tame records only. -/
theorem Dialogue.Behaves.run {raises : Error → Prop} {gives : α → Prop} {d : Dialogue α}
    (hd : d.Behaves T R raises gives) {w : World} (hw : w.Tells T R) (hlog : w.LogsTame T) :
    EndsIn raises gives (d.run w).1 ∧ (d.run w).2.LogsTame T := by
  obtain ⟨hends, -, hkept⟩ :=
    Ensures.run (I := fun v => v.Tells T R ∧ v.LogsTame T) (fun a _ _ hv => hv.1.event a)
      (fun a _ ha hv => ⟨hv.1.answer a, hv.2.answer ha⟩) hd ⟨hw, hlog⟩
  exact ⟨hends, hkept⟩

end RrdCache
