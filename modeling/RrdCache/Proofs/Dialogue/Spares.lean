/-
RrdCache/Proofs/Dialogue/Spares.lean

Faults that do not strike.  A plan of faults counts the uses of each operation, so that a
fault which is planned for a later use than a run gets to does not matter to the run.

Main result (`run_of_spares`): if the plan spares as many uses of each operation as the run
takes where nothing is planned, then the run is the one where nothing is planned.  It is the
converse of `run_calm`, and it carries what is known of runs without a plan over to the
first part of any run.
-/
import RrdCache.Proofs.Dialogue.Traffic

namespace RrdCache

namespace World

/-- No fault is planned for the next `n` uses of an operation. -/
def Spares (w : World) (op : Operation) (n : Nat) : Prop :=
  ∀ k < n, w.planned? op (w.uses op + k + 1) = none

theorem Spares.mono {w : World} {op : Operation} {m n : Nat} (h : w.Spares op n) (hmn : m ≤ n) :
    w.Spares op m :=
  fun k hk => h k (Nat.lt_of_lt_of_le hk hmn)

/-- What a plan spares before an action, it spares after it but for the use that was made. -/
theorem Spares.answer {w : World} {op : Operation} {a : Action} {m n : Nat}
    (h : w.Spares op (n + m)) (huses : (w.answer a).2.uses op = w.uses op + m) :
    (w.answer a).2.Spares op n := by
  intro k hk
  have hplanned := h (k + m) (by omega)
  rw [huses, planned?, answer_faults]
  rwa [show w.uses op + m + k + 1 = w.uses op + (k + m) + 1 by omega]

/-- An action fails only if a fault is planned for the use that it makes. -/
theorem not_failed_of_spares {w : World} {a : Action}
    (h : ∀ op, (w.calm.event a).operation? = some op → w.Spares op 1) :
    ¬ (w.event a).Failed := by
  cases a with
  | readLine | write _ | drain | waitClosed =>
    have hplanned := h _ rfl 0 Nat.one_pos
    rw [event, World.answer, use_of_none _ hplanned]
    exact id
  | dial address =>
    have hplanned : { w with dialed := w.dialed ++ [address] }.planned? .dial
        (w.uses .dial + 1) = none := h _ rfl 0 Nat.one_pos
    rw [event, World.answer, use_of_none _ hplanned]
    exact id
  | close | look | log _ => exact id

end World

namespace Dialogue

variable {α : Type}

/-- How often a run uses an operation is read off its traffic. -/
theorem countP_traffic (d : Dialogue α) (w : World) (op : Operation) :
    ((d.traffic w).countP fun e => e.operation? = some op)
      = (d.trace w).countP fun e => e.operation? = some op := by
  rw [traffic, List.countP_filter]
  apply List.countP_congr
  rintro ⟨a, answer⟩ -
  cases a with
  | readLine | write _ | drain | waitClosed | dial _ => simp [Action.isTransport]
  | close | look | log _ => simp [Event.operation?]

/-- A run that ends before any planned fault is the run without a plan. -/
theorem run_of_spares {d : Dialogue α} {w : World}
    (h : ∀ op, w.Spares op ((d.traffic w.calm).countP fun e => e.operation? = some op)) :
    d.run w.calm = ((d.run w).1, (d.run w).2.calm) := by
  simp only [countP_traffic] at h
  induction d generalizing w with
  | done r => rfl
  | ask a next ih =>
    simp only [trace, List.countP_cons, decide_eq_true_eq] at h
    -- the first action finds no fault, and answers as it does without a plan
    have hsound : ¬ (w.event a).Failed := by
      apply World.not_failed_of_spares
      intro op hop
      exact (h op).mono (by rw [if_pos hop]; omega)
    have hanswer := World.answer_calm hsound
    have hevent : w.calm.event a = w.event a := by rw [World.event, World.event, hanswer]
    rw [run, run, hanswer]
    apply ih
    intro op
    have hop := h op
    rw [hevent, hanswer] at hop
    exact hop.answer (w.answer_uses a op)

end Dialogue

end RrdCache
