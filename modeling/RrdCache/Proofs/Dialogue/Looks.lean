/-
RrdCache/Proofs/Dialogue/Looks.lean

What a run sees of the clock.  The readings of a clock are numbered (`Clock.reading`), and
`Clock.after` is the clock that is left after so many of them.  `looked` are the readings that a
run has seen, in order; dialogues that follow each other see those of the one and then those of
the other.

Main result (`looked_run`): a run sees the next readings, as many as it looks for, and leaves the
clock at the one after them.
-/
import RrdCache.Proofs.Dialogue.Traffic

namespace RrdCache

/-! ### Readings by number -/

namespace Clock

/-- The reading with a number, counted from 0: those of the list, and then the last one for
ever. -/
def reading (c : Clock) (n : Nat) : Reading :=
  (c.next :: c.later).getD n (c.later.getLastD c.next)

/-- The clock after a number of looks. -/
def after : Clock → Nat → Clock
  | c, 0 => c
  | c, n + 1 => c.look.2.after n

/-- After one look more the clock stands where a look at it leaves it. -/
theorem look_after (c : Clock) (n : Nat) : (c.after n).look.2 = c.after (n + 1) := by
  induction n generalizing c with
  | zero => rfl
  | succ n ih => exact ih c.look.2

/-- A clock without further readings keeps its reading. -/
theorem reading_of_last {c : Clock} (h : c.later = []) (n : Nat) : c.reading n = c.next := by
  cases n with
  | zero => rfl
  | succ n => simp [reading, h]

theorem reading_look (c : Clock) (n : Nat) : c.look.2.reading n = c.reading (n + 1) := by
  rcases c with ⟨next, - | ⟨r, later⟩⟩
  · exact (reading_of_last rfl n).trans (reading_of_last rfl (n + 1)).symm
  · rw [reading, reading, List.getD_cons_succ, List.getLastD_cons]
    rfl

theorem reading_mem (c : Clock) (n : Nat) : c.reading n ∈ c.next :: c.later := by
  induction n generalizing c with
  | zero => exact List.mem_cons_self
  | succ n ih =>
    rw [← reading_look]
    have hmem := ih c.look.2
    rcases c with ⟨next, - | ⟨r, later⟩⟩
    · exact hmem
    · exact List.mem_cons_of_mem _ hmem

/-- The readings that are left are those with the later numbers. -/
theorem next_after (c : Clock) (n : Nat) : (c.after n).next = c.reading n := by
  induction n generalizing c with
  | zero => rfl
  | succ n ih => rw [after, ih, reading_look]

end Clock

/-! ### Looks -/

/-- The readings that an event saw. -/
def Event.looked : Event → List Reading
  | ⟨.look, reading⟩ => [reading]
  | _ => []

namespace Dialogue

variable {α β : Type}

/-- The readings that a run saw, in order. -/
def looked (d : Dialogue α) (w : World) : List Reading :=
  (d.trace w).flatMap Event.looked

@[simp] theorem looked_done (r : Except Error α) (w : World) : (done r).looked w = [] := rfl

theorem looked_ask (a : Action) (next : a.Answer → Dialogue α) (w : World) :
    (ask a next).looked w
      = (w.event a).looked ++ (next (w.answer a).1).looked (w.answer a).2 := rfl

theorem looked_bind_ok {d : Dialogue α} {f : α → Dialogue β} {w : World} {a : α}
    (h : (d.run w).1 = .ok a) :
    (d >>= f).looked w = d.looked w ++ (f a).looked (d.run w).2 := by
  rw [looked, trace_bind_ok h, List.flatMap_append]
  rfl

theorem looked_bind_error {d : Dialogue α} {f : α → Dialogue β} {w : World} {e : Error}
    (h : (d.run w).1 = .error e) : (d >>= f).looked w = d.looked w := by
  rw [looked, trace_bind_error h, looked]

/-- A dialogue that does not look sees nothing. -/
theorem looked_of_asks {d : Dialogue α} (hd : d.Asks (· ≠ .look)) (w : World) :
    d.looked w = [] := by
  apply List.flatMap_eq_nil_iff.2
  intro e he
  have hnot := hd.mem_trace he
  obtain ⟨action, answer⟩ := e
  cases action with
  | look => exact absurd rfl hnot
  | readLine | write _ | drain | close | waitClosed | dial _ | log _ => rfl

/-- What follows and does not look adds nothing to what was seen. -/
theorem looked_bind {d : Dialogue α} {f : α → Dialogue β} (hf : ∀ a, (f a).Asks (· ≠ .look))
    (w : World) : (d >>= f).looked w = d.looked w := by
  rcases h : (d.run w).1 with e | a
  · exact looked_bind_error h
  · rw [looked_bind_ok h, looked_of_asks (hf a), List.append_nil]

/-- A run sees the readings of the clock one after the other from where the clock stands, and
leaves it at the first one that it did not see. -/
theorem looked_run (d : Dialogue α) {w : World} {c : Clock} {n : Nat} (h : w.clock = c.after n) :
    d.looked w = (List.range' n (d.looked w).length).map c.reading ∧
      (d.run w).2.clock = c.after (n + (d.looked w).length) := by
  induction d generalizing w n with
  | done r => exact ⟨rfl, h⟩
  | ask a next ih =>
    rw [run, looked_ask]
    by_cases ha : a = .look
    · subst ha
      have hseen : (w.event .look).looked = [c.reading n] := by
        rw [← c.next_after, ← h, ← Clock.look_fst]
        rfl
      have hclock : (w.answer .look).2.clock = c.after (n + 1) := by
        rw [← c.look_after, ← h]
        rfl
      obtain ⟨hlater, hleft⟩ := ih (w.answer .look).1 hclock
      rw [hseen, List.singleton_append, List.length_cons, List.range'_succ, List.map_cons,
        ← hlater, hleft, Nat.add_assoc, Nat.add_comm 1]
      exact ⟨rfl, rfl⟩
    · have hseen : (w.event a).looked = [] := by
        cases a with
        | look => exact absurd rfl ha
        | readLine | write _ | drain | close | waitClosed | dial _ | log _ => rfl
      rw [hseen, List.nil_append]
      exact ih _ ((w.answer_clock ha).trans h)

end Dialogue

end RrdCache
