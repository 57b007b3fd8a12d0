/-
RrdCache/Proofs/Escape/Basic.lean

Errors that escape.  Most errors belong to the client's own classes; a number that cannot be
converted, a text that is no address, a blank where a value is needed and a limit of the
stream do not, and a caller who expects the client's errors only does not catch them.

`Escapes r` says that a result is such an error.  Each way of putting results together has
its law: a chain escapes if the first of its steps that fails does, and so does a list.
-/
import RrdCache.Proofs.Number.Spelling
import RrdCache.Proofs.Result
import RrdCache.Request.Fields

namespace RrdCache

/-- Whether an error belongs to none of the client's own classes. -/
def Error.isPlain : Error → Bool
  | numeral _ | address _ | blank _ | fault _ => true
  | _ => false

/-- A result that is a plain error. -/
def Escapes {α : Type} (r : Except Error α) : Prop :=
  ∃ e, r = .error e ∧ e.isPlain

/-- The first of these that is not fine is a bad one. -/
def FirstIs {α : Type} (fine bad : α → Prop) (xs : List α) : Prop :=
  ∃ before x after, xs = before ++ x :: after ∧ (∀ y ∈ before, fine y) ∧ bad x

section Laws

variable {α β : Type} {x : Except Error α} {f : α → Except Error β}

@[simp] theorem not_escapes_ok (a : α) : ¬ Escapes (.ok a : Except Error α) := by
  rintro ⟨e, h, -⟩
  cases h

@[simp] theorem escapes_error {e : Error} : Escapes (.error e : Except Error α) ↔ e.isPlain := by
  constructor
  · rintro ⟨_, h, hplain⟩
    rwa [Except.error.inj h]
  · intro hplain
    exact ⟨e, rfl, hplain⟩

theorem escapes_bind : Escapes (x >>= f) ↔ Escapes x ∨ ∃ a, x = .ok a ∧ Escapes (f a) := by
  cases x with
  | error e =>
    show Escapes (.error e) ↔ _
    simp
  | ok a =>
    show Escapes (f a) ↔ _
    simp

/-- A chain goes on after a check that is passed. -/
theorem escapes_check_bind {x : Except Error Unit} {f : Unit → Except Error β} :
    Escapes (x >>= f) ↔ Escapes x ∨ x = .ok () ∧ Escapes (f ()) := by
  rw [escapes_bind]
  refine or_congr_right ⟨?_, ?_⟩
  · rintro ⟨⟨⟩, hx, h⟩
    exact ⟨hx, h⟩
  · rintro ⟨hx, h⟩
    exact ⟨(), hx, h⟩

theorem escapes_map (g : α → β) : Escapes (g <$> x) ↔ Escapes x := by
  cases x with
  | error e =>
    show Escapes (.error e) ↔ _
    simp
  | ok a =>
    show Escapes (.ok (g a)) ↔ _
    simp

theorem firstIs_nil {fine bad : α → Prop} : ¬ FirstIs fine bad [] := by
  rintro ⟨before, x, after, h, -⟩
  simp at h

theorem firstIs_cons {fine bad : α → Prop} {a : α} {xs : List α} :
    FirstIs fine bad (a :: xs) ↔ bad a ∨ (fine a ∧ FirstIs fine bad xs) := by
  constructor
  · rintro ⟨before, x, after, h, hfine, hbad⟩
    cases before with
    | nil =>
      obtain ⟨rfl, rfl⟩ := List.cons.inj h
      exact .inl hbad
    | cons b before =>
      obtain ⟨rfl, rfl⟩ := List.cons.inj h
      obtain ⟨ha, hbefore⟩ := List.forall_mem_cons.1 hfine
      exact .inr ⟨ha, before, x, after, rfl, hbefore, hbad⟩
  · rintro (hbad | ⟨ha, before, x, after, rfl, hfine, hbad⟩)
    · exact ⟨[], a, xs, rfl, by simp, hbad⟩
    · exact ⟨a :: before, x, after, rfl, List.forall_mem_cons.2 ⟨ha, hfine⟩, hbad⟩

theorem firstIs_congr {fine bad bad' : α → Prop} {xs : List α}
    (h : ∀ x ∈ xs, (bad x ↔ bad' x)) : FirstIs fine bad xs ↔ FirstIs fine bad' xs := by
  induction xs with
  | nil => simp [firstIs_nil]
  | cons x xs ih =>
    obtain ⟨hx, hxs⟩ := List.forall_mem_cons.1 h
    rw [firstIs_cons, firstIs_cons, hx, ih hxs]

/-- If not all are fine, there is a first one that is not. -/
theorem exists_firstIs {fine : α → Prop} {xs : List α} (h : ¬ ∀ x ∈ xs, fine x) :
    FirstIs fine (fun x => ¬ fine x) xs := by
  induction xs with
  | nil => exact absurd (List.forall_mem_nil _) h
  | cons x xs ih =>
    rw [firstIs_cons]
    by_cases hx : fine x
    · exact .inr ⟨hx, ih fun hxs => h (List.forall_mem_cons.2 ⟨hx, hxs⟩)⟩
    · exact .inl hx

/-- A traversal fails with the error of its first step that fails. -/
theorem Result.mapM_eq_error {xs : List α} {e : Error} :
    xs.mapM f = .error e ↔ FirstIs (fun x => ∃ y, f x = .ok y) (fun x => f x = .error e) xs := by
  induction xs with
  | nil => simp [firstIs_nil, pure, Except.pure]
  | cons x xs ih =>
    rw [List.mapM_cons, firstIs_cons, ← ih]
    rcases f x with e' | y
    · show Except.error e' = .error e ↔ _
      simp
    · show (xs.mapM f >>= fun ys => pure (y :: ys)) = .error e ↔ _
      rcases xs.mapM f with e' | ys
      · show Except.error e' = .error e ↔ _
        simp
      · show Except.ok (y :: ys) = .error e ↔ _
        simp

/-- A traversal escapes where its first step that fails does. -/
theorem escapes_mapM {xs : List α} :
    Escapes (xs.mapM f) ↔ FirstIs (fun a => ∃ b, f a = .ok b) (fun a => Escapes (f a)) xs := by
  induction xs with
  | nil => simp [List.mapM_nil, firstIs_nil, pure, Except.pure]
  | cons a xs ih =>
    rw [List.mapM_cons, escapes_bind, firstIs_cons, ← ih]
    refine or_congr_right ⟨?_, ?_⟩
    · rintro ⟨b, hb, h⟩
      rcases escapes_bind.1 h with h | ⟨bs, -, h⟩
      · exact ⟨⟨b, hb⟩, h⟩
      · exact absurd h (not_escapes_ok _)
    · rintro ⟨⟨b, hb⟩, h⟩
      exact ⟨b, hb, escapes_bind.2 (.inl h)⟩

/-- A check of a list escapes where its first check that fails does. -/
theorem escapes_forM {g : α → Except Error Unit} {xs : List α} :
    Escapes (xs.forM g) ↔ FirstIs (fun a => g a = .ok ()) (fun a => Escapes (g a)) xs := by
  induction xs with
  | nil => simp [firstIs_nil, List.forM, pure, Except.pure]
  | cons a xs ih =>
    show Escapes (g a >>= fun _ => xs.forM g) ↔ _
    rw [escapes_check_bind, firstIs_cons, ← ih]

/-- Where no step can escape, a traversal does not. -/
theorem not_escapes_forM {g : α → Except Error Unit} {xs : List α}
    (h : ∀ a ∈ xs, ¬ Escapes (g a)) : ¬ Escapes (xs.forM g) := by
  rw [escapes_forM]
  rintro ⟨before, x, after, rfl, -, hbad⟩
  exact h x (by simp) hbad

end Laws

/-! ### Numbers -/

theorem escapes_liftNumeral {α : Type} {x : Except NumeralError α} :
    Escapes (liftNumeral x) ↔ ∃ cause, x = .error cause := by
  cases x with
  | error cause => simp [liftNumeral, Error.isPlain]
  | ok a => simp [liftNumeral]

/-- A conversion succeeds or escapes. -/
theorem ok_of_not_escapes {α : Type} {x : Except NumeralError α} (h : ¬ Escapes (liftNumeral x)) :
    ∃ a, liftNumeral x = .ok a := by
  cases x with
  | error cause => exact absurd (escapes_liftNumeral.2 ⟨cause, rfl⟩) h
  | ok a => exact ⟨a, rfl⟩

/-- Reading digits escapes beyond 4300 of them. -/
theorem escapes_value {digits : List Char} :
    Escapes (liftNumeral (Numeral.value digits)) ↔ Numeral.digitLimit < digits.length := by
  rw [escapes_liftNumeral, Numeral.value]
  split
  · rename_i hlong
    simp [hlong]
  · rename_i hshort
    simp [hshort]

theorem escapes_signedValue {s : List Char} :
    Escapes (liftNumeral (Numeral.signedValue s)) ↔
      Numeral.digitLimit < (Numeral.sign s).2.length := by
  have hmap : Numeral.signedValue s
      = Numeral.signed (Numeral.sign s).1 <$> Numeral.value (Numeral.sign s).2 := rfl
  rw [escapes_liftNumeral, hmap, ← escapes_value, escapes_liftNumeral]
  cases Numeral.value (Numeral.sign s).2 <;> simp

/-- A value that is a whole number too long to be written. -/
def Scalar.Overlong (v : Scalar) : Prop :=
  ∃ i, v = .int i ∧ Numeral.Overlong i

theorem escapes_intField {i : Int} : Escapes (intField i) ↔ Numeral.Overlong i := by
  rw [intField, escapes_liftNumeral]
  by_cases hi : Numeral.Overlong i
  · simp [Numeral.text_of_overlong hi, hi]
  · simp [Numeral.text_of_not_overlong hi, hi]

/-- Writing a value escapes only for a whole number: other values are written, or refused
with an error of the client's own. -/
theorem escapes_field {v : Scalar} : Escapes v.field ↔ v.Overlong := by
  cases v with
  | int i =>
    rw [show (Scalar.int i).field = intField i from rfl, escapes_intField]
    simp [Scalar.Overlong]
  | text s =>
    rw [Scalar.field]
    split <;> simp [Scalar.Overlong, Error.isPlain]
  | float x => simp [Scalar.field, Scalar.Overlong]
  | null | bool _ | blank => simp [Scalar.field, Scalar.Overlong, Error.isPlain]

/-- An error that shows a value gives way to a plain one if the value cannot be shown. -/
theorem isPlain_showing {v : Scalar} {e : Error} :
    (Error.showing v e).isPlain ↔ v.Overlong ∨ e.isPlain := by
  cases v with
  | int i =>
    by_cases hi : Numeral.Overlong i
    · simp [Error.showing, Scalar.shown?, Numeral.text_of_overlong hi, Scalar.Overlong, hi,
        Error.isPlain]
    · simp [Error.showing, Scalar.shown?, Numeral.text_of_not_overlong hi, Scalar.Overlong, hi]
  | null | bool _ | float _ | text _ | blank =>
    simp [Error.showing, Scalar.shown?, Scalar.Overlong]

/-- A choice that a value makes, or the error that shows the value: what escapes is a whole
number too long to be shown, as no such number makes a choice. -/
theorem escapes_choice {α : Type} {choice : Option α} {r : Except Error α} {v : Scalar} {e : Error}
    (hsome : ∀ a, choice = some a → r = .ok a) (hnone : choice = none → r = .error (.showing v e))
    (hlong : v.Overlong → choice = none) (he : e.isPlain = false) :
    Escapes r ↔ v.Overlong := by
  cases choice with
  | some a =>
    rw [hsome a rfl]
    apply iff_of_false (not_escapes_ok a)
    intro h
    cases hlong h
  | none =>
    rw [hnone rfl, escapes_error, isPlain_showing, he]
    simp

end RrdCache
