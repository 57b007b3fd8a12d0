/-
RrdCache/Proofs/Number/Spelling.lean

The characters of numbers on the wire.  A whole number is digits, perhaps after a minus.  A
finite double is digits and the characters of a point, an exponent and a sign, and a point
or an exponent is always among them: it is never digits alone.
-/
import RrdCache.Number.Shortest
import RrdCache.Proofs.Text.Token

namespace RrdCache

/-- A character of the text of a finite double, but for the minus in front of it. -/
def isDecimalChar (c : Char) : Bool :=
  c.isDigit || c == '.' || c == 'e' || c == '+' || c == '-'

theorem isDecimalChar_of_isDigit {c : Char} (h : c.isDigit) : isDecimalChar c := by
  simp [isDecimalChar, h]

theorem isGraphic_of_isDecimalChar {c : Char} (h : isDecimalChar c) : isGraphic c := by
  simp only [isDecimalChar, Bool.or_eq_true, beq_iff_eq] at h
  rcases h with (((h | rfl) | rfl) | rfl) | rfl
  · exact isGraphic_of_isDigit h
  all_goals decide

theorem isDigit_of_mem_toDigits {n : Nat} {c : Char} (h : c ∈ Nat.toDigits 10 n) : c.isDigit :=
  Nat.isDigit_of_mem_toDigits (by decide) (by decide) h

theorem mem_of_mem_trimEnd {α : Type} {p : α → Bool} {s : List α} {a : α}
    (h : a ∈ trimEnd p s) : a ∈ s := by
  have hmem := (List.dropWhile_sublist p).subset (List.mem_reverse.1 h)
  exact List.mem_reverse.1 hmem

/-! ### Whole numbers -/

/-- A whole number is spelt with digits, and with a minus if it is negative. -/
theorem Numeral.mem_digits {i : Int} {c : Char} (h : c ∈ Numeral.digits i) :
    c.isDigit ∨ (c = '-' ∧ i < 0) := by
  rw [Numeral.digits] at h
  split at h
  · rename_i hi
    rcases List.mem_cons.1 h with rfl | h
    · exact .inr ⟨rfl, hi⟩
    · exact .inl (isDigit_of_mem_toDigits h)
  · exact .inl (isDigit_of_mem_toDigits h)

theorem Numeral.digits_ne_nil (i : Int) : Numeral.digits i ≠ [] := by
  rw [Numeral.digits]
  split
  · exact List.cons_ne_nil _ _
  · exact Nat.toDigits_ne_nil

/-- A whole number that is too long to be written. -/
def Numeral.Overlong (i : Int) : Prop :=
  Nat.pow 10 Numeral.digitLimit ≤ i.natAbs

theorem Numeral.exists_overlong : ∃ i, Overlong i := by
  generalize hleast : Nat.pow 10 digitLimit = least
  have hover : Overlong least := by
    rw [Overlong, hleast]
    exact Nat.le_refl least
  exact ⟨least, hover⟩

theorem Numeral.text_of_overlong {i : Int} (h : Overlong i) : text i = .error .tooLarge := by
  rw [Overlong] at h
  rw [text, if_pos h]

theorem Numeral.text_of_not_overlong {i : Int} (h : ¬ Overlong i) : text i = .ok (spelling i) := by
  rw [Overlong] at h
  rw [text, if_neg h]

/-! ### Decimals -/

namespace Decimal

variable {layout : DecimalLayout} {digits : List Char} {place : Int}

theorem exponentText_chars (width : Nat) (e : Int) :
    ∀ c ∈ exponentText width e, isDecimalChar c := by
  intro c hc
  simp only [exponentText, List.mem_cons, List.mem_append, List.mem_replicate] at hc
  rcases hc with rfl | rfl | ⟨-, rfl⟩ | hc
  · decide
  · split <;> decide
  · decide
  · exact isDecimalChar_of_isDigit (isDigit_of_mem_toDigits hc)

theorem positional_chars (h : ∀ c ∈ digits, c.isDigit) :
    ∀ c ∈ positional digits place, isDecimalChar c := by
  have hdigits : ∀ c ∈ digits, isDecimalChar c := fun c hc =>
    isDecimalChar_of_isDigit (h c hc)
  intro c hc
  rw [positional] at hc
  -- the point stands before the digits, after them, or among them
  split at hc
  · simp only [List.mem_cons, List.mem_append, List.mem_replicate] at hc
    rcases hc with rfl | rfl | ⟨-, rfl⟩ | hc
    · decide
    · decide
    · decide
    · exact hdigits c hc
  split at hc
  · simp only [List.mem_cons, List.mem_append, List.mem_replicate, List.not_mem_nil,
      or_false] at hc
    rcases hc with (hc | ⟨-, rfl⟩) | rfl | rfl
    · exact hdigits c hc
    · decide
    · decide
    · decide
  · rw [List.mem_append, List.mem_cons] at hc
    rcases hc with hc | rfl | hc
    · exact hdigits c (List.mem_of_mem_take hc)
    · decide
    · exact hdigits c (List.mem_of_mem_drop hc)

theorem scientific_chars (h : ∀ c ∈ digits, c.isDigit) :
    ∀ c ∈ scientific layout digits place, isDecimalChar c := by
  have hdigits : ∀ c ∈ digits, isDecimalChar c := fun c hc =>
    isDecimalChar_of_isDigit (h c hc)
  intro c hc
  simp only [scientific, List.mem_append] at hc
  rcases hc with hc | hc
  · split at hc
    · rename_i first second rest
      simp only [List.mem_cons] at hc
      rcases hc with rfl | rfl | hc
      · exact hdigits c (by simp)
      · decide
      · exact hdigits c (by simp [hc])
    · exact hdigits c hc
  · exact exponentText_chars _ _ c hc

theorem point_mem_positional : '.' ∈ positional digits place := by
  rw [positional]
  split
  · simp
  split <;> simp

theorem letter_mem_scientific : 'e' ∈ scientific layout digits place := by
  simp [scientific, exponentText]

theorem text_chars (d : Decimal) : ∀ c ∈ text layout d, isDecimalChar c := by
  have hdigits : ∀ c ∈ trimEnd (· == '0') (Nat.toDigits 10 d.coefficient), c.isDigit :=
    fun c hc => isDigit_of_mem_toDigits (mem_of_mem_trimEnd hc)
  rw [text]
  split
  · exact positional_chars hdigits
  · exact scientific_chars hdigits

/-- The text of a decimal is never digits alone. -/
theorem text_mark (d : Decimal) : '.' ∈ text layout d ∨ 'e' ∈ text layout d := by
  rw [text]
  split
  · exact .inl point_mem_positional
  · exact .inr letter_mem_scientific

end Decimal

/-! ### Doubles -/

theorem find?_getD_cases {α : Type} (l : List α) (p : α → Bool) (a : α) :
    (∃ b ∈ l, p b ∧ (l.find? p).getD a = b) ∨ (l.find? p).getD a = a := by
  rcases h : l.find? p with - | b
  · exact .inr rfl
  · exact .inl ⟨b, List.mem_of_find?_eq_some h, List.find?_some h, rfl⟩

namespace Magnitude

/-- The text of a positive magnitude is that of a decimal which reads back, or else its
expansion. -/
theorem text_cases (m : Magnitude) :
    (m.units = 0 ∧ m.text = ['0', '.', '0']) ∨
      (m.units ≠ 0 ∧ (∃ d, m.text = Decimal.text .wire d) ∧
        Binary64.ofUnsigned? false m.text = some (.finite false m)) ∨
      (m.units ≠ 0 ∧ m.text = m.expansion) := by
  by_cases hunits : m.units = 0
  · exact .inl ⟨hunits, by rw [text, if_pos hunits]⟩
  rw [text, if_neg hunits]
  rcases find?_getD_cases (m.candidates.map (Decimal.text .wire))
    (fun t => Binary64.ofUnsigned? false t == some (.finite false m)) m.expansion
    with ⟨t, ht, hreads, hfound⟩ | hnone
  · obtain ⟨d, -, rfl⟩ := List.mem_map.1 ht
    refine .inr (.inl ⟨hunits, ⟨d, hfound⟩, ?_⟩)
    rw [hfound]
    exact eq_of_beq hreads
  · exact .inr (.inr ⟨hunits, hnone⟩)

theorem expansion_chars (m : Magnitude) : ∀ c ∈ m.expansion, isDecimalChar c := by
  intro c hc
  rw [expansion, List.mem_append] at hc
  rcases hc with hc | hc
  · exact isDecimalChar_of_isDigit (isDigit_of_mem_toDigits hc)
  · have hmark : "e-1074".toList.all isDecimalChar := by decide
    exact List.all_eq_true.1 hmark c hc

theorem text_chars (m : Magnitude) : ∀ c ∈ m.text, isDecimalChar c := by
  rcases m.text_cases with ⟨-, h⟩ | ⟨-, ⟨d, h⟩, -⟩ | ⟨-, h⟩
  · rw [h]
    exact List.all_eq_true.1 (by decide)
  · rw [h]
    exact d.text_chars
  · rw [h]
    exact m.expansion_chars

/-- The text of a magnitude is never digits alone. -/
theorem text_mark (m : Magnitude) : '.' ∈ m.text ∨ 'e' ∈ m.text := by
  rcases m.text_cases with ⟨-, h⟩ | ⟨-, ⟨d, h⟩, -⟩ | ⟨-, h⟩
  · rw [h]
    exact .inl (by decide)
  · rw [h]
    exact d.text_mark
  · rw [h]
    rw [expansion]
    exact .inr (List.mem_append_right _ (by decide))

end Magnitude

namespace Binary64

/-- A double that is a number is written as one of the infinities, or as the text of its
magnitude with a minus in front of it if it is negative. -/
theorem chars_cases (x : Binary64) :
    x = .nan ∨ (∃ negative, x = .infinite negative ∧
        x.chars = (if negative then ['-'] else []) ++ ['i', 'n', 'f']) ∨
      ∃ negative m, x = .finite negative m ∧
        x.chars = (if negative then ['-'] else []) ++ m.text := by
  cases x with
  | nan => exact .inl rfl
  | infinite negative =>
    refine .inr (.inl ⟨negative, rfl, ?_⟩)
    cases negative <;> rfl
  | finite negative m =>
    refine .inr (.inr ⟨negative, m, rfl, ?_⟩)
    cases negative <;> rfl

end Binary64

end RrdCache
