/-
RrdCache/Proofs/Error/Tame.lean

Errors that the program can answer for.  A `Tame` error is one that the program expects, and
whose message stays on one line as long as the texts do that the surroundings tell: the texts
of their faults and of a clock that cannot be read.  `OfExchange` says in addition that the
error does not blame a request.

`Event.TellsFault` and `Action.IsTame` are the classes of answers and of actions in which a
dialogue stays tame: the texts of faults are told, and records stay on one line.
-/
import RrdCache.Proofs.Dialogue.Ensures
import RrdCache.Proofs.Dialogue.Frame
import RrdCache.Proofs.Error.Message
import RrdCache.Proofs.Result

namespace RrdCache

/-- A text that stays on one line, if the texts of a class do. -/
def StaysIn (T : String → Prop) (s : String) : Prop :=
  (∀ t, T t → OneLine t) → OneLine s

section StaysIn

variable {T : String → Prop} {s : String}

theorem OneLine.staysIn (hs : OneLine s) : StaysIn T s :=
  fun _ => hs

theorem staysIn_of_mem (hs : T s) : StaysIn T s :=
  fun hT => hT s hs

theorem StaysIn.append {t : String} (hs : StaysIn T s) (ht : StaysIn T t) :
    StaysIn T (s ++ t) :=
  fun hT => (hs hT).append (ht hT)

end StaysIn

namespace Error

/-- Whether an error says that a request cannot be written down: an argument breaks a rule, or
there is no time for an update. -/
def isOfRequest : Error → Bool
  | identifier _ _ _ | directory _ | notANumber _ | archiveIndex _ | update _ | series _
  | query _ | clock _ => true
  | transport _ | truncated _ | status _ | line _ | refused _ _ | unexpected _ _ | rejected _ _
  | numeral _ | address _ | blank _ | fault _ => false

/-- Errors that no request has. -/
abbrev IsLate (e : Error) : Prop :=
  e.isOfRequest = false

/-- The program expects the error, and its message shows no text as it is that may break the
line, but for texts of a class. -/
structure Tame (T : String → Prop) (e : Error) : Prop where
  expected : e.isExpected
  bare : ∀ t ∈ e.bare, StaysIn T t

/-- The error is tame, and it is none of a request. -/
structure OfExchange (T : String → Prop) (e : Error) : Prop extends Tame T e where
  late : e.IsLate

variable {T : String → Prop} {e : Error}

/-- An error that is expected and shows no text as it is. -/
theorem Tame.of_bare_nil (hexpected : e.isExpected) (hbare : e.bare = []) : e.Tame T :=
  ⟨hexpected, by simp [hbare]⟩

end Error

/-! ### Numbers -/

namespace NumeralError

/-- A number of which a conversion fails in a way that is expected. -/
def IsExpected {α : Type} (x : Except NumeralError α) : Prop :=
  ∀ cause, x = .error cause → (Error.numeral cause).isExpected

theorem isExpected_value (digits : List Char) : IsExpected (Numeral.value digits) := by
  rw [Numeral.value]
  split
  · rintro _ ⟨⟩
    rfl
  · rintro _ ⟨⟩

theorem isExpected_signedValue (s : List Char) : IsExpected (Numeral.signedValue s) := by
  rw [Numeral.signedValue]
  rcases hvalue : Numeral.value (Numeral.sign s).2 with cause | n
  · have h := isExpected_value _ _ hvalue
    intro cause' hcause
    simp only [hvalue] at hcause
    obtain rfl := Except.error.inj hcause
    exact h
  · intro cause hcause
    simp only [hvalue] at hcause
    cases hcause

theorem isExpected_text (i : Int) : IsExpected (Numeral.text i) := by
  rw [Numeral.text]
  split
  · rintro _ ⟨⟩
    rfl
  · rintro _ ⟨⟩

theorem isExpected_double (s : List Char) : IsExpected (Binary64.ofText s) := by
  rw [Binary64.ofText]
  split
  · rintro _ ⟨⟩
  · rintro _ ⟨⟩
    rfl

theorem isExpected_whole (s : List Char) : IsExpected (Numeral.ofText s) := by
  intro cause h
  rw [Numeral.ofText] at h
  dsimp only at h
  split at h
  · obtain rfl := Except.error.inj h
    rfl
  · split at h
    · rename_i hvalue
      obtain rfl := Except.error.inj h
      exact isExpected_value _ _ hvalue
    · split at h
      · cases h
      · obtain rfl := Except.error.inj h
        rfl

end NumeralError

section Numbers

variable {α : Type} {T : String → Prop} {x : Except NumeralError α}

theorem exchange_liftNumeral (hx : NumeralError.IsExpected x) :
    FailsWith (Error.OfExchange T) (liftNumeral x) := by
  cases x with
  | error cause => exact failsWith_error ⟨.of_bare_nil (hx cause rfl) rfl, rfl⟩
  | ok a => exact failsWith_ok a

theorem tame_liftNumeral (hx : NumeralError.IsExpected x) :
    FailsWith (Error.Tame T) (liftNumeral x) :=
  fun e he => (exchange_liftNumeral hx e he).toTame

/-- If an error is tame, then so is what is raised when it cannot show its value. -/
theorem Error.Tame.showing {e : Error} (he : e.Tame T) (v : Scalar) : (e.showing v).Tame T := by
  have hshown : NumeralError.IsExpected v.shown? := by
    cases v with
    | int i => exact NumeralError.isExpected_text i
    | null | bool _ | float _ | text _ | blank => rintro _ ⟨⟩
  rw [Error.showing]
  split
  · exact he
  · exact .of_bare_nil (hshown _ ‹_›) rfl

end Numbers

/-! ### Surroundings -/

/-- The text of a fault is in a class. -/
def Event.TellsFault (T : String → Prop) : Event → Prop
  | ⟨.readLine, .error f⟩ | ⟨.write _, .error f⟩ | ⟨.drain, .error f⟩
  | ⟨.waitClosed, .error f⟩ | ⟨.dial _, .error f⟩ => T f.text
  | _ => True

/-- An action that leaves no other than records of one line. -/
def Action.IsTame (T : String → Prop) : Action → Prop
  | .log record => StaysIn T record.text
  | _ => True

end RrdCache
