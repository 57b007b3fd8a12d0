/-
RrdCache/Proofs/Dialogue/Run.lean

How dialogues run.  Dialogues satisfy the monad laws, and a run goes through them part by
part: `run_andThen` is the law for going on after any result, and `run_bind` the one for
going on with a value.

What holds along every run is proved one action at a time.  `Dialogue.Asks p` says that
a dialogue takes actions of a class only, whatever the answers are; an invariant that
each action of the class keeps is then kept by the whole run (`run_invariant`).  The facts
of the form "this dialogue leaves that part of the world alone" all come from there.
-/
import RrdCache.World

namespace RrdCache

namespace Dialogue

variable {α β γ : Type}

/-! ### Laws -/

theorem andThen_assoc (d : Dialogue α) (f : Except Error α → Dialogue β)
    (g : Except Error β → Dialogue γ) :
    (d.andThen f).andThen g = d.andThen fun r => (f r).andThen g := by
  induction d with
  | done r => rfl
  | ask a next ih => simp only [andThen, ih]

theorem bind_eq (d : Dialogue α) (f : α → Dialogue β) : d >>= f = d.bind f := rfl

theorem bind_done_ok (d : Dialogue α) : (d.bind fun a => done (.ok a)) = d := by
  induction d with
  | done r => cases r <;> rfl
  | ask a next ih =>
    simp only [bind, andThen] at ih ⊢
    simp only [ih]

theorem bind_bind (d : Dialogue α) (f : α → Dialogue β) (g : β → Dialogue γ) :
    (d.bind f).bind g = d.bind fun a => (f a).bind g := by
  rw [bind, bind, andThen_assoc, bind]
  congr 1
  funext r
  cases r <;> rfl

instance : LawfulMonad Dialogue :=
  LawfulMonad.mk' Dialogue (fun d => bind_done_ok d) (fun _ _ => rfl)
    (fun d f g => bind_bind d f g)

@[simp] theorem pure_eq (a : α) : (pure a : Dialogue α) = done (.ok a) := rfl

@[simp] theorem ofExcept_ok_bind (a : α) (f : α → Dialogue β) :
    ofExcept (.ok a) >>= f = f a := rfl

@[simp] theorem ofExcept_error_bind (e : Error) (f : α → Dialogue β) :
    ofExcept (.error e) >>= f = done (.error e) := rfl

theorem map_ofExcept (f : α → β) (r : Except Error α) :
    f <$> ofExcept r = ofExcept (f <$> r) := by
  cases r <;> rfl

theorem map_andThen (f : β → γ) (d : Dialogue α) (g : Except Error α → Dialogue β) :
    f <$> d.andThen g = d.andThen fun r => f <$> g r := by
  simp only [map_eq_pure_bind]
  exact andThen_assoc _ _ _

theorem andThen_map (f : α → β) (d : Dialogue α) (g : Except Error β → Dialogue γ) :
    (f <$> d).andThen g = d.andThen fun r => g (f <$> r) := by
  rw [map_eq_pure_bind, bind_eq, Dialogue.bind, andThen_assoc]
  congr 1
  funext r
  cases r <;> rfl

/-! ### Runs -/

@[simp] theorem run_done (r : Except Error α) (w : World) : (done r).run w = (r, w) := rfl

@[simp] theorem run_ofExcept (r : Except Error α) (w : World) :
    (ofExcept r).run w = (r, w) := rfl

@[simp] theorem run_fail (e : Error) (w : World) :
    (fail e : Dialogue α).run w = (.error e, w) := rfl

@[simp] theorem run_perform (a : Action) (w : World) :
    (perform a).run w = (.ok (w.answer a).1, (w.answer a).2) := rfl

/-- A record does nothing but to stand in the log. -/
@[simp] theorem run_record (level : LogLevel) (source : LogSource) (text : String) (w : World) :
    (log level source text).run w =
      (.ok (), { w with log := w.log ++ [⟨level, source, text⟩] }) := rfl

theorem run_andThen (d : Dialogue α) (f : Except Error α → Dialogue β) (w : World) :
    (d.andThen f).run w = (f (d.run w).1).run (d.run w).2 := by
  induction d generalizing w with
  | done r => rfl
  | ask a next ih => exact ih _ _

theorem run_bind (d : Dialogue α) (f : α → Dialogue β) (w : World) :
    (d >>= f).run w =
      match (d.run w).1 with
      | .ok a => (f a).run (d.run w).2
      | .error e => (.error e, (d.run w).2) := by
  rw [bind_eq, bind, run_andThen]
  cases (d.run w).1 <;> rfl

theorem run_bind_ok {d : Dialogue α} {f : α → Dialogue β} {w : World} {a : α}
    (h : (d.run w).1 = .ok a) : (d >>= f).run w = (f a).run (d.run w).2 := by
  rw [run_bind, h]

theorem run_bind_error {d : Dialogue α} {f : α → Dialogue β} {w : World} {e : Error}
    (h : (d.run w).1 = .error e) : (d >>= f).run w = (.error e, (d.run w).2) := by
  rw [run_bind, h]

theorem run_bind_eq_ok {d : Dialogue α} {f : α → Dialogue β} {w : World} {b : β} :
    ((d >>= f).run w).1 = .ok b ↔
      ∃ a, (d.run w).1 = .ok a ∧ ((f a).run (d.run w).2).1 = .ok b := by
  rcases hresult : (d.run w).1 with e | a
  · rw [run_bind_error hresult]
    simp
  · rw [run_bind_ok hresult]
    simp

@[simp] theorem run_map (f : α → β) (d : Dialogue α) (w : World) :
    (f <$> d).run w = ((d.run w).1.map f, (d.run w).2) := by
  rw [map_eq_pure_bind, run_bind]
  cases (d.run w).1 <;> rfl

@[simp] theorem run_attempt (answer : Except Fault α) (meaning : Fault → Error) (w : World) :
    (attempt answer meaning).run w = (answer.mapError meaning, w) := by
  cases answer <;> rfl

/-! ### What a dialogue may ask -/

/-- Every action that a dialogue may take belongs to a class, whatever the answers are. -/
def Asks (p : Action → Prop) : Dialogue α → Prop
  | done _ => True
  | ask a next => p a ∧ ∀ answer, (next answer).Asks p

variable {p q : Action → Prop}

@[simp] theorem asks_done (r : Except Error α) : (done r).Asks p := trivial

@[simp] theorem asks_ofExcept (r : Except Error α) : (ofExcept r).Asks p := trivial

@[simp] theorem asks_fail (e : Error) : (fail e : Dialogue α).Asks p := trivial

@[simp] theorem asks_perform (a : Action) : (perform a).Asks p ↔ p a :=
  ⟨fun h => h.1, fun h => ⟨h, fun _ => trivial⟩⟩

@[simp] theorem asks_log (level : LogLevel) (source : LogSource) (text : String) :
    (log level source text).Asks p ↔ p (.log ⟨level, source, text⟩) :=
  asks_perform _

@[simp] theorem asks_attempt (answer : Except Fault α) (meaning : Fault → Error) :
    (attempt answer meaning).Asks p := by
  cases answer <;> trivial

theorem Asks.mono (h : ∀ a, p a → q a) {d : Dialogue α} (hd : d.Asks p) : d.Asks q := by
  induction d with
  | done r => trivial
  | ask a next ih => exact ⟨h a hd.1, fun answer => ih answer (hd.2 answer)⟩

theorem Asks.andThen {d : Dialogue α} {f : Except Error α → Dialogue β}
    (hd : d.Asks p) (hf : ∀ r, (f r).Asks p) : (d.andThen f).Asks p := by
  induction d with
  | done r => exact hf r
  | ask a next ih => exact ⟨hd.1, fun answer => ih answer (hd.2 answer)⟩

theorem Asks.bind {d : Dialogue α} {f : α → Dialogue β}
    (hd : d.Asks p) (hf : ∀ a, (f a).Asks p) : (d >>= f).Asks p :=
  hd.andThen fun
    | .ok a => hf a
    | .error _ => trivial

theorem Asks.map {d : Dialogue α} (f : α → β) (hd : d.Asks p) : (f <$> d).Asks p := by
  rw [map_eq_pure_bind]
  exact hd.bind fun _ => trivial

/-- What every action of a class keeps, a run of such actions keeps. -/
theorem run_invariant {I : World → Prop}
    (step : ∀ a w, p a → I w → I (w.answer a).2) {d : Dialogue α} (hd : d.Asks p)
    {w : World} (hw : I w) : I (d.run w).2 := by
  induction d generalizing w with
  | done r => exact hw
  | ask a next ih => exact ih _ (hd.2 _) (step a w hd.1 hw)

end Dialogue

end RrdCache
