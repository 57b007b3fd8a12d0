/-
RrdCache/Proofs/Text/Scan.lean

What the readers of parts take off a text.  A run is split off in one way only: it is not
empty, holds characters of its class only, and what follows does not go on with the class
(`Scan.run?_eq_some_iff`).  The parts of reply lines get their lemmas from this one.
-/
import Mathlib.Data.List.TakeWhile
import RrdCache.Reply.Shape

namespace RrdCache

namespace Scan

variable {p : Char → Bool} {s run rest : List Char}

/-- Nothing of a class stands at the front of a text. -/
def Ends (p : Char → Bool) (s : List Char) : Prop :=
  ∀ c ∈ s.head?, p c = false

theorem ends_nil : Ends p [] := by
  simp [Ends]

@[simp] theorem ends_cons {c : Char} : Ends p (c :: s) ↔ p c = false := by
  simp [Ends]

theorem ends_append (hs : s ≠ []) {t : List Char} : Ends p (s ++ t) ↔ Ends p s := by
  cases s with
  | nil => exact absurd rfl hs
  | cons c s => rw [List.cons_append, ends_cons, ends_cons]

theorem ends_dropWhile : Ends p (s.dropWhile p) := by
  intro c hc
  have hnot := List.head?_dropWhile_not p s
  rw [Option.mem_def.1 hc] at hnot
  simpa using hnot

theorem takeWhile_append_of_ends (hrun : ∀ c ∈ run, p c) (hrest : Ends p rest) :
    (run ++ rest).takeWhile p = run := by
  rw [List.takeWhile_append_of_pos hrun]
  cases rest with
  | nil => simp
  | cons c rest => simp [ends_cons.1 hrest]

theorem dropWhile_append_of_ends (hrun : ∀ c ∈ run, p c) (hrest : Ends p rest) :
    (run ++ rest).dropWhile p = rest := by
  rw [List.dropWhile_append_of_pos hrun]
  cases rest with
  | nil => rfl
  | cons c rest => simp [ends_cons.1 hrest]

/-- A run is split off in one way only. -/
theorem run?_eq_some_iff :
    run? p s = some (run, rest) ↔
      s = run ++ rest ∧ run ≠ [] ∧ (∀ c ∈ run, p c) ∧ Ends p rest := by
  constructor
  · intro h
    rw [run?] at h
    split at h
    · exact absurd h (by simp)
    · rename_i hne
      obtain ⟨rfl, rfl⟩ : s.takeWhile p = run ∧ s.dropWhile p = rest := by simpa using h
      refine ⟨List.takeWhile_append_dropWhile.symm, by simpa using hne, ?_, ends_dropWhile⟩
      exact fun c hc => List.mem_takeWhile_imp hc
  · rintro ⟨rfl, hne, hrun, hrest⟩
    rw [run?, takeWhile_append_of_ends hrun hrest, dropWhile_append_of_ends hrun hrest, if_neg]
    simpa using hne

theorem after?_append (start s : List Char) : after? start (start ++ s) = some s := by
  simp [after?]

theorem after?_eq_some {start t : List Char} (h : after? start s = some t) : s = start ++ t := by
  rw [after?] at h
  split at h
  · rename_i hprefix
    obtain ⟨t', rfl⟩ := List.isPrefixOf_iff_prefix.1 hprefix
    obtain rfl := Option.some.inj h
    rw [List.drop_left]
  · cases h

theorem before?_append (s ending : List Char) : before? ending (s ++ ending) = some s := by
  simp [before?]

end Scan

theorem isGap_iff {c : Char} : isGap c ↔ c = ' ' ∨ c = '\t' := by
  rw [isGap, Bool.or_eq_true, beq_iff_eq, beq_iff_eq]

namespace Shape

variable {s rest : List Char}

/-- A gap ends the digits in front of it. -/
theorem ends_isDigit_append {gap : List Char} (hne : gap ≠ []) (hgap : ∀ c ∈ gap, isGap c) :
    Scan.Ends Char.isDigit (gap ++ rest) := by
  refine (Scan.ends_append hne).2 fun c hc => ?_
  rcases isGap_iff.1 (hgap c (List.mem_of_head? hc)) with rfl | rfl <;> decide

/-- The characters that a text up to the end of its line may have. -/
def IsText (s : List Char) : Prop :=
  ∀ c ∈ s, c ≠ '\r' ∧ c ≠ '\n'

instance (s : List Char) : Decidable (IsText s) :=
  List.decidableBAll _ s

/-- The rest of a line is what stands before its line feed. -/
theorem text?_eq_some_iff {t : List Char} : text? s = some t ↔ s = t ++ ['\n'] ∧ IsText t := by
  have hclass (c : Char) : (c != '\r' && c != '\n') = true ↔ c ≠ '\r' ∧ c ≠ '\n' := by simp
  constructor
  · intro h
    rw [text?] at h
    split at h
    · rename_i hdrop
      obtain rfl := Option.some.inj h
      refine ⟨?_, fun c hc => ?_⟩
      · rw [← hdrop, List.takeWhile_append_dropWhile]
      · have hmem := List.mem_takeWhile_imp hc
        exact (hclass c).1 hmem
    · exact absurd h (by simp)
  · rintro ⟨rfl, ht⟩
    have hall : ∀ c ∈ t, (c != '\r' && c != '\n') = true := fun c hc => (hclass c).2 (ht c hc)
    have hend : Scan.Ends (fun c : Char => c != '\r' && c != '\n') ['\n'] := by simp
    simp only [text?, Scan.dropWhile_append_of_ends hall hend,
      Scan.takeWhile_append_of_ends hall hend, if_true]

/-- A gap and the gap characters behind it are taken off together. -/
theorem gap?_append {gap : List Char} (hne : gap ≠ []) (hgap : ∀ c ∈ gap, isGap c)
    (s : List Char) : gap? (gap ++ s) = some (s.dropWhile isGap) := by
  have hrun : Scan.run? isGap (gap ++ s)
      = some (gap ++ s.takeWhile isGap, s.dropWhile isGap) := by
    refine Scan.run?_eq_some_iff.2 ⟨?_, by simp [hne], ?_, Scan.ends_dropWhile⟩
    · rw [List.append_assoc, List.takeWhile_append_dropWhile]
    · intro c hc
      rcases List.mem_append.1 hc with hc | hc
      · exact hgap c hc
      · exact List.mem_takeWhile_imp hc
  rw [gap?, hrun, Option.map_some]

/-- Digits after a sign are taken off with it. -/
theorem signedDigits?_append {sign digits : List Char}
    (hsign : sign = [] ∨ sign = ['+'] ∨ sign = ['-']) (hne : digits ≠ [])
    (hdigits : ∀ c ∈ digits, c.isDigit) (hrest : Scan.Ends Char.isDigit rest) :
    signedDigits? (sign ++ digits ++ rest) = some (sign ++ digits, rest) := by
  have hrun : digits? (digits ++ rest) = some (digits, rest) :=
    Scan.run?_eq_some_iff.2 ⟨rfl, hne, hdigits, hrest⟩
  rcases hsign with rfl | rfl | rfl
  · obtain ⟨c, digits, rfl⟩ := List.exists_cons_of_ne_nil hne
    have hc := hdigits c List.mem_cons_self
    have hplus : c ≠ '+' := by rintro rfl; exact absurd hc (by decide)
    have hminus : c ≠ '-' := by rintro rfl; exact absurd hc (by decide)
    simpa [signedDigits?, hplus, hminus] using hrun
  · simp [signedDigits?, hrun]
  · simp [signedDigits?, hrun]

/-- What is taken off as digits after a sign is a sign, which may be missing, and digits. -/
theorem signedDigits?_eq_some {number : List Char} (h : signedDigits? s = some (number, rest)) :
    ∃ sign digits, number = sign ++ digits ∧ s = number ++ rest ∧
      (sign = [] ∨ sign = ['+'] ∨ sign = ['-']) ∧ digits ≠ [] ∧ ∀ c ∈ digits, c.isDigit := by
  rcases s with - | ⟨c, s⟩
  · cases h
  rw [signedDigits?] at h
  split at h
  · rename_i hsign
    obtain ⟨⟨digits, rest'⟩, hdigits, hpair⟩ := Option.map_eq_some_iff.1 h
    obtain ⟨rfl, rfl⟩ := Prod.mk.inj hpair
    obtain ⟨rfl, hne, hall, -⟩ := Scan.run?_eq_some_iff.1 hdigits
    refine ⟨[c], digits, rfl, rfl, ?_, hne, hall⟩
    rcases hsign with rfl | rfl <;> simp
  · obtain ⟨hs, hne, hall, -⟩ := Scan.run?_eq_some_iff.1 h
    exact ⟨[], number, rfl, hs, .inl rfl, hne, hall⟩

/-- What is taken off as a gap is one, and goes as far as it can. -/
theorem gap?_eq_some (h : gap? s = some rest) :
    ∃ gap, s = gap ++ rest ∧ gap ≠ [] ∧ (∀ c ∈ gap, isGap c) ∧ Scan.Ends isGap rest := by
  obtain ⟨⟨gap, rest'⟩, hrun, rfl⟩ := Option.map_eq_some_iff.1 h
  obtain ⟨hs, hne, hall, hends⟩ := Scan.run?_eq_some_iff.1 hrun
  exact ⟨gap, hs, hne, hall, hends⟩

end Shape

end RrdCache
