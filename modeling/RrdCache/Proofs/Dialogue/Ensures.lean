/-
RrdCache/Proofs/Dialogue/Ensures.lean

What a dialogue ensures about what it is told.  `Ensures meets keeps raises gives d` is read
in this way: as long as the answers are such as `meets` allows, `d` takes actions of the
class `keeps` only, and it ends with an error of the class `raises` or with a value of the
class `gives`.  It is put together along a dialogue like `Asks` and `Raises`, which it
combines; the difference is that a class of errors may depend on what was answered.

Main result (`Ensures.run`): in a world that keeps to such answers, a run does and gives
what its dialogue ensures.
-/
import RrdCache.Proofs.Dialogue.Trace
import RrdCache.Proofs.Dialogue.Raises

namespace RrdCache

/-- An error is in one class, or a value in the other. -/
def EndsIn {α : Type} (raises : Error → Prop) (gives : α → Prop) : Except Error α → Prop
  | .error e => raises e
  | .ok a => gives a

section EndsIn

variable {α β : Type} {raises raises' : Error → Prop} {gives : α → Prop} {gives' : β → Prop}
variable {r : Except Error α}

theorem EndsIn.mono (h : EndsIn raises gives r) (hraises : ∀ e, raises e → raises' e) :
    EndsIn raises' gives r := by
  cases r with
  | error e => exact hraises e h
  | ok a => exact h

theorem EndsIn.map (h : EndsIn raises gives r) {g : α → β} (hg : ∀ a, gives a → gives' (g a)) :
    EndsIn raises gives' (r.map g) := by
  cases r with
  | error e => exact h
  | ok a => exact hg a h

end EndsIn

namespace Dialogue

variable {α β : Type} {meets : Event → Prop} {keeps : Action → Prop} {raises : Error → Prop}
variable {gives : α → Prop} {gives' : β → Prop}

/-- As long as the answers are such as can be met, every action is of a class, and so are the
error or the value at the end. -/
def Ensures (meets : Event → Prop) (keeps : Action → Prop) (raises : Error → Prop)
    (gives : α → Prop) : Dialogue α → Prop
  | done r => EndsIn raises gives r
  | ask a next =>
    keeps a ∧ ∀ answer, meets ⟨a, answer⟩ → (next answer).Ensures meets keeps raises gives

namespace Ensures

theorem ofExcept {r : Except Error α} (h : EndsIn raises gives r) :
    (ofExcept r).Ensures meets keeps raises gives := h

theorem pure {a : α} (h : gives a) : (pure a : Dialogue α).Ensures meets keeps raises gives := h

theorem fail {e : Error} (h : raises e) :
    (fail e : Dialogue α).Ensures meets keeps raises gives := h

theorem perform {a : Action} (ha : keeps a) :
    (perform a).Ensures meets keeps raises fun answer => meets ⟨a, answer⟩ :=
  ⟨ha, fun _ hmet => hmet⟩

theorem log {level : LogLevel} {source : LogSource} {text : String}
    (h : keeps (.log ⟨level, source, text⟩)) :
    (log level source text).Ensures meets keeps raises fun _ => True :=
  ⟨h, fun _ _ => trivial⟩

theorem attempt {answer : Except Fault α} {meaning : Fault → Error}
    (h : ∀ f, answer = .error f → raises (meaning f)) :
    (attempt answer meaning).Ensures meets keeps raises fun _ => True := by
  cases answer with
  | ok a => trivial
  | error f => exact h f rfl

/-- Fewer answers, and more errors and values. -/
theorem mono {meets' : Event → Prop} {raises' : Error → Prop} {gives' : α → Prop}
    {d : Dialogue α} (hd : d.Ensures meets keeps raises gives) (hmeets : ∀ e, meets' e → meets e)
    (hraises : ∀ e, raises e → raises' e) (hgives : ∀ a, gives a → gives' a) :
    d.Ensures meets' keeps raises' gives' := by
  induction d with
  | done r =>
    cases r with
    | error e => exact hraises e hd
    | ok a => exact hgives a hd
  | ask a next ih => exact ⟨hd.1, fun answer hmet => ih answer (hd.2 answer (hmeets _ hmet))⟩

/-- After an error the dialogue may go on as well. -/
theorem andThen {d : Dialogue α} {f : Except Error α → Dialogue β}
    (hd : d.Ensures meets keeps raises gives)
    (hf : ∀ r, EndsIn raises gives r → (f r).Ensures meets keeps raises gives') :
    (d.andThen f).Ensures meets keeps raises gives' := by
  induction d with
  | done r => exact hf r hd
  | ask a next ih => exact ⟨hd.1, fun answer hmet => ih answer (hd.2 answer hmet)⟩

theorem bind {d : Dialogue α} {f : α → Dialogue β} (hd : d.Ensures meets keeps raises gives)
    (hf : ∀ a, gives a → (f a).Ensures meets keeps raises gives') :
    (d >>= f).Ensures meets keeps raises gives' := by
  apply hd.andThen
  intro r hr
  cases r with
  | ok a => exact hf a hr
  | error e => exact hr

theorem map {d : Dialogue α} {g : α → β} (hd : d.Ensures meets keeps raises gives)
    (hg : ∀ a, gives a → gives' (g a)) : (g <$> d).Ensures meets keeps raises gives' := by
  rw [map_eq_pure_bind]
  exact hd.bind fun a ha => pure (hg a ha)

/-- What is ensured whatever is met holds of every error. -/
theorem toRaises {d : Dialogue α} (hmeets : ∀ e, meets e)
    (hd : d.Ensures meets keeps raises gives) : d.Raises raises := by
  induction d with
  | done r =>
    rintro e rfl
    exact hd
  | ask a next ih => exact fun answer => ih answer (hd.2 answer (hmeets _))

/-- A run does what its dialogue ensures, in a world in which only such answers are met as
long as the actions are of the class. -/
theorem run {I : World → Prop} (hmeets : ∀ a w, keeps a → I w → meets (w.event a))
    (hkeeps : ∀ a w, keeps a → I w → I (w.answer a).2) {d : Dialogue α}
    (hd : d.Ensures meets keeps raises gives) {w : World} (hw : I w) :
    EndsIn raises gives (d.run w).1 ∧ I (d.run w).2 := by
  induction d generalizing w with
  | done r => exact ⟨hd, hw⟩
  | ask a next ih =>
    exact ih _ (hd.2 _ (hmeets a w hd.1 hw)) (hkeeps a w hd.1 hw)

end Ensures

end Dialogue

end RrdCache
