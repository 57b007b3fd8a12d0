/-
RrdCache/Proofs/Json/Number.lean

Numbers as JSON writes them.  The decimal text of a whole number or of a finite double is one: its
digits never begin with a zero that could be left out, and digits stand on both sides of a
point.  A double never takes the text of a decimal without digits, because such a text would
not read back.

Main results (`isNumber_digits`, `isNumber_chars`).
-/
import RrdCache.Proofs.Json.Grammar
import RrdCache.Proofs.Number.RoundTrip

namespace RrdCache

theorem trimEnd_cons_of_neg {α : Type} {p : α → Bool} {a : α} (ha : p a = false) (s : List α) :
    trimEnd p (a :: s) = a :: trimEnd p s := by
  rw [trimEnd, trimEnd, List.reverse_cons, List.dropWhile_append]
  split
  · rename_i hnone
    simp [ha, List.isEmpty_iff.1 hnone]
  · simp

/-! ### Decimals that read as zero -/

namespace Decimal

theorem round_zero (negative : Bool) {d : Decimal} (h : d.coefficient = 0) :
    round negative d = .finite negative .zero := by
  unfold round
  exact if_pos h

theorem natOfDigits_zeros {s : List Char} (h : ∀ c ∈ s, c = '0') : Numeral.natOfDigits s = 0 := by
  rw [Numeral.natOfDigits]
  induction s with
  | nil => rfl
  | cons c s ih =>
    obtain ⟨rfl, hs⟩ := List.forall_mem_cons.1 h
    rw [Nat.ofDigitChars_cons]
    exact ih hs

/-- Zeros with a point among them spell zero. -/
theorem coefficient_of_zeros {m n : Nat} {d : Decimal}
    (h : ofChars? (List.replicate m '0' ++ '.' :: List.replicate n '0') = some d) :
    d.coefficient = 0 := by
  have hzeros (k : Nat) : ∀ c ∈ List.replicate k '0', c = '0' := fun c => List.eq_of_mem_replicate
  have hdigits (k : Nat) : ∀ c ∈ List.replicate k '0', c.isDigit := by
    intro c hc
    rw [hzeros k c hc]
    decide
  have hfraction := fractionRun_pointed (hdigits n) Scan.ends_nil
  rw [List.append_nil] at hfraction
  rw [ofChars?_append (hdigits m) (Scan.ends_cons.2 (by decide)) hfraction (hdigits n)] at h
  obtain ⟨e, -, h⟩ := Option.bind_eq_some_iff.1 h
  split at h
  · cases h
  · obtain rfl := Option.some.inj h
    exact natOfDigits_zeros (List.forall_mem_append.2 ⟨hzeros m, hzeros n⟩)

/-- An exponent alone spells nothing. -/
theorem ofChars?_exponentText (width : Nat) (e : Int) : ofChars? (exponentText width e) = none := by
  obtain ⟨s, hs⟩ : ∃ s, exponentText width e = [] ++ 'e' :: s := ⟨_, rfl⟩
  rw [hs, ofChars?_append (List.forall_mem_nil _) (Scan.ends_cons.2 (by decide)) rfl
    (List.forall_mem_nil _), Option.bind_eq_none_iff]
  exact fun _ _ => rfl

/-- Without digits, a text is zeros and a point, or an exponent alone. -/
theorem text_cases_of_zero (layout : DecimalLayout) {d : Decimal} (h : d.coefficient = 0) :
    (∃ m n, text layout d = List.replicate m '0' ++ '.' :: List.replicate n '0') ∨
      ∃ width e, text layout d = exponentText width e := by
  have hdigits : trimEnd (· == '0') (Nat.toDigits 10 0) = [] := by decide
  rw [text, h, hdigits]
  split
  · rw [positional]
    split
    · exact .inl ⟨1, _, by simp; rfl⟩
    · exact .inl ⟨_, 1, by simp; rfl⟩
  · exact .inr ⟨_, _, rfl⟩

/-- A text that reads as a positive magnitude is not that of a decimal without digits. -/
theorem coefficient_ne_zero {layout : DecimalLayout} {d : Decimal} {m : Magnitude}
    (hm : m.units ≠ 0)
    (h : Binary64.ofUnsigned? false (text layout d) = some (.finite false m)) :
    d.coefficient ≠ 0 := by
  intro hzero
  have hread : ∃ d', ofChars? (text layout d) = some d' ∧ round false d' = .finite false m := by
    rw [Binary64.ofUnsigned?] at h
    rcases hword : Binary64.ofWord? false (text layout d) with - | x
    · rw [hword] at h
      exact Option.map_eq_some_iff.1 h
    · rw [hword] at h
      obtain rfl := Option.some.inj h
      exact absurd hword Binary64.ofWord?_ne_finite
  obtain ⟨d', hd', hround⟩ := hread
  have hcoefficient : d'.coefficient = 0 := by
    rcases text_cases_of_zero layout hzero with ⟨_, _, htext⟩ | ⟨_, _, htext⟩
    · rw [htext] at hd'
      exact coefficient_of_zeros hd'
    · rw [htext, ofChars?_exponentText] at hd'
      cases hd'
  rw [round_zero false hcoefficient] at hround
  cases hround
  exact hm rfl

end Decimal

namespace Json

/-! ### Digits -/

/-- Digits of which the first is not zero. -/
inductive IsLed : List Char → Prop
  | first {c : Char} {s : List Char} (hc : c.isDigit) (hne : c ≠ '0') (hs : ∀ d ∈ s, d.isDigit) :
    IsLed (c :: s)

variable {s t : List Char}

namespace IsLed

theorem isWhole (h : IsLed s) : IsWhole s := by
  cases h with
  | first hc hne hs => exact .digits hc hne hs

theorem isDigits (h : IsLed s) : IsDigits s := by
  cases h with
  | first hc hne hs => exact ⟨List.cons_ne_nil _ _, List.forall_mem_cons.2 ⟨hc, hs⟩⟩

theorem append (h : IsLed s) (ht : ∀ d ∈ t, d.isDigit) : IsLed (s ++ t) := by
  cases h with
  | first hc hne hs => exact .first hc hne (List.forall_mem_append.2 ⟨hs, ht⟩)

theorem take (h : IsLed s) {n : Nat} (hn : 0 < n) : IsLed (s.take n) := by
  cases h with
  | first hc hne hs =>
    obtain ⟨n, rfl⟩ := Nat.exists_eq_add_of_lt hn
    rw [Nat.zero_add, List.take_succ_cons]
    exact .first hc hne fun d hd => hs d (List.mem_of_mem_take hd)

/-- Zeros at the end are no matter. -/
theorem trimEnd (h : IsLed s) : IsLed (trimEnd (· == '0') s) := by
  cases h with
  | @first c s hc hne hs =>
    rw [trimEnd_cons_of_neg (by simpa using hne)]
    exact .first hc hne fun d hd => hs d (mem_of_mem_trimEnd hd)

end IsLed

theorem isLed_toDigits {n : Nat} (hn : n ≠ 0) : IsLed (Nat.toDigits 10 n) := by
  have hdigit : ∀ d < 10, d ≠ 0 → Nat.digitChar d ≠ '0' := by decide
  induction n using Nat.strongRecOn with
  | ind n ih =>
    rcases Nat.lt_or_ge n 10 with hlt | hge
    · rw [Nat.toDigits_of_lt_base hlt]
      exact .first (by simp [Nat.isDigit_digitChar, hlt]) (hdigit n hlt hn) (by simp)
    · rw [Nat.toDigits_of_base_le (by decide) hge]
      refine (ih (n / 10) (by omega) (by omega)).append ?_
      simp [Nat.isDigit_digitChar, Nat.mod_lt]

theorem isWhole_toDigits (n : Nat) : IsWhole (Nat.toDigits 10 n) := by
  by_cases hn : n = 0
  · subst hn
    exact .zero
  · exact (isLed_toDigits hn).isWhole

theorem isDigits_toDigits (n : Nat) : IsDigits (Nat.toDigits 10 n) :=
  ⟨Nat.toDigits_ne_nil, fun _ => isDigit_of_mem_toDigits⟩

/-! ### Numbers without a sign -/

/-- A number if there is a minus before it, and if there is none. -/
def IsUnsigned (s : List Char) : Prop :=
  ∀ minus, minus = [] ∨ minus = ['-'] → IsNumber (minus ++ s)

theorem isUnsigned_parts {whole fraction exponent : List Char} (hwhole : IsWhole whole)
    (hfraction : IsFraction fraction) (hexponent : IsExponent exponent) :
    IsUnsigned (whole ++ fraction ++ exponent) := by
  intro minus hminus
  rw [← List.append_assoc, ← List.append_assoc]
  exact .parts hminus hwhole hfraction hexponent

/-- Zeros before or after digits are digits. -/
theorem isDigit_of_mem_zeros {n : Nat} {d : Char} (h : d ∈ List.replicate n '0') : d.isDigit := by
  rw [List.eq_of_mem_replicate h]
  decide

theorem isExponent_exponentText (width : Nat) (e : Int) :
    IsExponent (Decimal.exponentText width e) := by
  have hdigits (n : Nat) : IsDigits (List.replicate n '0' ++ Nat.toDigits 10 e.natAbs) :=
    ⟨by simp [Nat.toDigits_ne_nil], List.forall_mem_append.2
      ⟨fun _ => isDigit_of_mem_zeros, (isDigits_toDigits _).2⟩⟩
  rw [Decimal.exponentText]
  split
  · exact @IsExponent.letter 'e' ['-'] _ (.inl rfl) (.inr (.inr rfl)) (hdigits _)
  · exact @IsExponent.letter 'e' ['+'] _ (.inl rfl) (.inr (.inl rfl)) (hdigits _)

theorem isUnsigned_positional {digits : List Char} (h : IsLed digits) (place : Int) :
    IsUnsigned (Decimal.positional digits place) := by
  obtain ⟨hne, hdigits⟩ := h.isDigits
  have hfraction {s : List Char} (hs : s ≠ []) (hd : ∀ d ∈ s, d.isDigit) :
      IsFraction ('.' :: s) := .point ⟨hs, hd⟩
  rw [Decimal.positional]
  -- the point stands before the digits, after them, or among them
  split
  · have hafter : ∀ d ∈ List.replicate place.natAbs '0' ++ digits, d.isDigit :=
      List.forall_mem_append.2 ⟨fun _ => isDigit_of_mem_zeros, hdigits⟩
    simpa using isUnsigned_parts .zero (hfraction (by simp [hne]) hafter) .none
  split
  · have hzeros := h.append (t := List.replicate (place.natAbs - digits.length) '0')
      fun _ => isDigit_of_mem_zeros
    simpa using isUnsigned_parts hzeros.isWhole (hfraction (s := ['0']) (by simp) (by simp)) .none
  · have hleft := h.take (n := place.natAbs) (by omega)
    have hright := hfraction (s := digits.drop place.natAbs) (by simpa using by omega)
      fun d hd => hdigits d (List.mem_of_mem_drop hd)
    simpa using isUnsigned_parts hleft.isWhole hright .none

theorem isUnsigned_scientific (layout : DecimalLayout) {digits : List Char} (h : IsLed digits)
    (place : Int) : IsUnsigned (Decimal.scientific layout digits place) := by
  have hexponent := isExponent_exponentText layout.exponentDigits (place - 1)
  cases h with
  | @first c s hc hne hs =>
    have hwhole : IsWhole [c] := .digits hc hne (by simp)
    cases s with
    | nil => exact isUnsigned_parts hwhole .none hexponent
    | cons d s =>
      have hfraction : IsFraction ('.' :: d :: s) := .point ⟨List.cons_ne_nil _ _, hs⟩
      exact isUnsigned_parts hwhole hfraction hexponent

theorem isUnsigned_decimal (layout : DecimalLayout) {d : Decimal} (h : d.coefficient ≠ 0) :
    IsUnsigned (Decimal.text layout d) := by
  have hdigits := (isLed_toDigits h).trimEnd
  rw [Decimal.text]
  split
  · exact isUnsigned_positional hdigits _
  · exact isUnsigned_scientific layout hdigits _

theorem isUnsigned_expansion (m : Magnitude) : IsUnsigned m.expansion := by
  have hexponent : IsExponent "e-1074".toList :=
    @IsExponent.letter 'e' ['-'] "1074".toList (.inl rfl) (.inr (.inr rfl))
      ⟨by decide, List.all_eq_true.1 (by decide)⟩
  rw [Magnitude.expansion]
  generalize m.units * Nat.pow 5 1074 = n
  simpa using isUnsigned_parts (isWhole_toDigits n) .none hexponent

theorem isUnsigned_text (m : Magnitude) : IsUnsigned m.text := by
  rcases m.text_cases with ⟨-, h⟩ | ⟨hunits, ⟨d, h⟩, hreads⟩ | ⟨-, h⟩
  · rw [h]
    exact isUnsigned_parts .zero (.point ⟨by decide, by simp⟩ : IsFraction ['.', '0']) .none
  · rw [h] at hreads ⊢
    exact isUnsigned_decimal .wire (Decimal.coefficient_ne_zero hunits hreads)
  · rw [h]
    exact isUnsigned_expansion m

/-! ### Numbers -/

/-- A whole number is written as JSON writes it. -/
theorem isNumber_digits (i : Int) : IsNumber (Numeral.digits i) := by
  have hdigits : IsUnsigned (Nat.toDigits 10 i.natAbs) := by
    simpa using isUnsigned_parts (isWhole_toDigits i.natAbs) .none .none
  rw [Numeral.digits]
  split
  · exact hdigits ['-'] (.inr rfl)
  · exact hdigits [] (.inl rfl)

/-- A finite double is written as JSON writes it. -/
theorem isNumber_chars (negative : Bool) (m : Magnitude) :
    IsNumber (Binary64.finite negative m).chars := by
  cases negative with
  | true => exact isUnsigned_text m ['-'] (.inr rfl)
  | false => exact isUnsigned_text m [] (.inl rfl)

end Json

end RrdCache
