/-
RrdCache/Proofs/Dialogue/Raises.lean

Which errors a dialogue can raise.  `FailsWith p r` says that the error of a result, if it is
one, belongs to a class; `Dialogue.Raises p d` says the same of every leaf of a dialogue, and
so of every run.  Both are put together along chains and traversals.
-/
import RrdCache.Proofs.Dialogue.Run
import RrdCache.Proofs.Result

namespace RrdCache

/-- The error of a result, if it is one, belongs to a class. -/
def FailsWith {α : Type} (p : Error → Prop) (r : Except Error α) : Prop :=
  ∀ e, r = .error e → p e

section Results

variable {α β : Type} {p : Error → Prop} {x : Except Error α} {f : α → Except Error β}

theorem failsWith_ok (a : α) : FailsWith p (.ok a : Except Error α) := by
  intro e h
  cases h

theorem failsWith_error {e : Error} (h : p e) : FailsWith p (.error e : Except Error α) := by
  rintro _ ⟨⟩
  exact h

theorem FailsWith.bind (hx : FailsWith p x) (hf : ∀ a, FailsWith p (f a)) :
    FailsWith p (x >>= f) := by
  cases x with
  | error e => exact failsWith_error (hx e rfl)
  | ok a => exact hf a

theorem FailsWith.map (hx : FailsWith p x) (g : α → β) : FailsWith p (g <$> x) := by
  cases x with
  | error e => exact failsWith_error (hx e rfl)
  | ok a => exact failsWith_ok _

theorem failsWith_ite {c : Prop} [Decidable c] {y : Except Error α} (hx : FailsWith p x)
    (hy : FailsWith p y) : FailsWith p (if c then x else y) := by
  split
  · exact hx
  · exact hy

theorem failsWith_mapM {xs : List α} (hf : ∀ a, FailsWith p (f a)) :
    FailsWith p (xs.mapM f) := by
  induction xs with
  | nil => exact failsWith_ok []
  | cons a xs ih =>
    rw [List.mapM_cons]
    exact (hf a).bind fun b => ih.bind fun bs => failsWith_ok (b :: bs)

theorem failsWith_forM {f : α → Except Error Unit} (hf : ∀ a, FailsWith p (f a))
    (xs : List α) : FailsWith p (xs.forM f) := by
  induction xs with
  | nil => exact failsWith_ok ()
  | cons a xs ih => exact (hf a).bind fun _ => ih

end Results

namespace Dialogue

variable {α β : Type} {p : Error → Prop}

/-- Every error that a dialogue may end with belongs to a class, whatever the answers are. -/
def Raises (p : Error → Prop) : Dialogue α → Prop
  | done r => FailsWith p r
  | ask _ next => ∀ answer, (next answer).Raises p

/-- Whatever the surroundings are, a run ends with an error of the class or with none. -/
theorem Raises.run {d : Dialogue α} (hd : d.Raises p) (w : World) :
    FailsWith p (d.run w).1 := by
  induction d generalizing w with
  | done r => exact hd
  | ask a next ih => exact ih _ (hd _) _

theorem Raises.mono {q : Error → Prop} (h : ∀ e, p e → q e) {d : Dialogue α}
    (hd : d.Raises p) : d.Raises q := by
  induction d with
  | done r => exact fun e he => h e (hd e he)
  | ask a next ih => exact fun answer => ih answer (hd answer)

theorem raises_ofExcept {r : Except Error α} (h : FailsWith p r) : (ofExcept r).Raises p := h

theorem raises_pure (a : α) : (pure a : Dialogue α).Raises p := failsWith_ok a

/-- After an error of the class the dialogue may go on as well. -/
theorem Raises.andThen {d : Dialogue α} {f : Except Error α → Dialogue β} (hd : d.Raises p)
    (hf : ∀ r, FailsWith p r → (f r).Raises p) : (d.andThen f).Raises p := by
  induction d with
  | done r => exact hf r hd
  | ask a next ih => exact fun answer => ih answer (hd answer)

theorem Raises.bind {d : Dialogue α} {f : α → Dialogue β} (hd : d.Raises p)
    (hf : ∀ a, (f a).Raises p) : (d >>= f).Raises p := by
  apply hd.andThen
  intro r hr
  cases r with
  | ok a => exact hf a
  | error e => exact failsWith_error (hr e rfl)

theorem Raises.map {d : Dialogue α} (hd : d.Raises p) (g : α → β) : (g <$> d).Raises p := by
  rw [map_eq_pure_bind]
  exact hd.bind fun a => raises_pure (g a)

end Dialogue

end RrdCache
