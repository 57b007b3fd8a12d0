/-
RrdCache/Proofs/Number/RoundTrip.lean

Numbers that were written read back.  A whole number that is not too long reads back as
itself (`Numeral.ofText_digits`), and so does every double that is a number, of either sign
and with its sign kept even for zero (`Binary64.ofText?_chars`).  The shortest text of a
double was chosen for reading back; if none had been found, the exact expansion would stand
in its place, and it reads back because rounding is exact.
-/
import RrdCache.Number.Shortest
import RrdCache.Proofs.Number.Reading
import RrdCache.Proofs.Number.Rounding
import RrdCache.Proofs.Number.Spelling
import RrdCache.Proofs.Text.Scan

namespace RrdCache

/-! ### Whole numbers -/

namespace Numeral

/-- Digits without underscores are one group. -/
theorem ungroup?_eq_some {digits : List Char} (hne : digits ≠ [])
    (hdigits : ∀ c ∈ digits, c.isDigit) : ungroup? digits = some digits := by
  have hnone : ∀ l ∈ [digits], '_' ∉ l := by
    intro l hl hmem
    rw [List.mem_singleton.1 hl] at hmem
    exact absurd (hdigits _ hmem) (by decide)
  have hone := List.splitOn_intercalate '_' hnone (by simp)
  rw [List.intercalate_singleton] at hone
  have hempty : digits.isEmpty = false := by simpa using hne
  simp [ungroup?, hone, hempty]

/-- The digits of a number are among the characters of which runs of digits are made. -/
theorem isPart_toDigits (n : Nat) :
    ∀ c ∈ Nat.toDigits 10 n, (c.isDigit || c == '_') = true := by
  intro c hc
  rw [isDigit_of_mem_toDigits hc, Bool.true_or]

/-- A number that is not too long has few enough digits. -/
theorem length_toDigits {n : Nat} (h : ¬ Overlong n) : (Nat.toDigits 10 n).length ≤ digitLimit := by
  have hlimit : ∀ k, 0 < k → n < Nat.pow 10 k → (Nat.toDigits 10 n).length ≤ k := fun k hk =>
    (Nat.length_toDigits_le_iff (by decide) hk).2
  rw [Overlong, Nat.not_le] at h
  exact hlimit digitLimit (by decide) h

/-- Digits of a number that is not too long have its value. -/
theorem value_toDigits {n : Nat} (h : ¬ Overlong n) : value (Nat.toDigits 10 n) = .ok n := by
  rw [value_eq_ok_iff, natOfDigits, Nat.ofDigitChars_ten_toDigits]
  exact ⟨length_toDigits h, rfl⟩

/-- The digits of a number are split off its minus. -/
theorem sign_digits (i : Int) :
    sign (digits i) = (decide (i < 0), Nat.toDigits 10 i.natAbs) := by
  rw [digits]
  split
  · rename_i hi
    rw [decide_eq_true hi]
    rfl
  · rename_i hi
    rw [decide_eq_false hi]
    rcases htext : Nat.toDigits 10 i.natAbs with - | ⟨c, s⟩
    · rfl
    · have hc : c.isDigit := isDigit_of_mem_toDigits (htext ▸ List.mem_cons_self)
      exact sign_of_isDecimalStart (by simp [isDecimalStart, hc]) s

theorem signed_natAbs (i : Int) : signed (decide (i < 0)) i.natAbs = i := by
  rw [signed]
  split
  · rename_i hi
    have hnegative := of_decide_eq_true hi
    omega
  · rename_i hi
    have hpositive : ¬ i < 0 := by simpa using hi
    omega

/-- A whole number reads back. -/
theorem ofText_digits {i : Int} (h : ¬ Overlong i) : ofText (digits i) = .ok i := by
  have hfolded : folded (digits i) = digits i := by
    apply folded_eq_self
    intro c hc
    rcases mem_digits hc with hdigit | ⟨rfl, -⟩
    · exact isFolded_of_isGraphic (isGraphic_of_isDigit hdigit)
    · decide
  have hdigits : ∀ c ∈ Nat.toDigits 10 i.natAbs, c.isDigit := fun c => isDigit_of_mem_toDigits
  -- everything behind the sign is taken as digits, and nothing is left over
  have hends : Scan.Ends (fun c : Char => c.isDigit || c == '_') [] := Scan.ends_nil
  have htake := Scan.takeWhile_append_of_ends (isPart_toDigits i.natAbs) hends
  have hdrop := Scan.dropWhile_append_of_ends (isPart_toDigits i.natAbs) hends
  rw [List.append_nil] at htake hdrop
  have hvalue : value (Nat.toDigits 10 i.natAbs) = .ok i.natAbs := value_toDigits h
  simp only [ofText, hfolded, sign_digits, htake, hdrop,
    ungroup?_eq_some Nat.toDigits_ne_nil hdigits, hvalue, signed_natAbs, List.isEmpty_nil, if_true]

end Numeral

/-! ### Doubles -/

namespace Binary64

/-- The double with another sign; there is no sign of what is no number. -/
def withSign (negative : Bool) : Binary64 → Binary64
  | nan => nan
  | infinite _ => infinite negative
  | finite _ m => finite negative m

theorem round_withSign (negative : Bool) (a b : Nat) :
    round negative a b = (round false a b).withSign negative := by
  unfold round
  cases Magnitude.round a b <;> rfl

theorem ofWord?_withSign (negative : Bool) (s : List Char) :
    ofWord? negative s = (ofWord? false s).map (withSign negative) := by
  rw [ofWord?, ofWord?]
  split
  · rfl
  split <;> rfl

end Binary64

theorem Decimal.round_withSign (negative : Bool) (d : Decimal) :
    round negative d = (round false d).withSign negative := by
  unfold round
  dsimp only
  split
  · rfl
  split
  · split
    · rfl
    · exact Binary64.round_withSign _ _ _
  · split
    · rfl
    · exact Binary64.round_withSign _ _ _

namespace Binary64

/-- Characters read as the same double with either sign. -/
theorem ofUnsigned?_withSign (negative : Bool) (s : List Char) :
    ofUnsigned? negative s = (ofUnsigned? false s).map (withSign negative) := by
  rw [ofUnsigned?, ofUnsigned?, ofWord?_withSign]
  cases ofWord? false s with
  | some x => rfl
  | none =>
    show (Decimal.ofChars? s).map (Decimal.round negative) = _
    rw [Option.map_map]
    exact congrArg (Option.map · _) (funext (Decimal.round_withSign negative))

end Binary64

/-! ### Decimals -/

namespace Decimal

variable {run rest : List Char}

theorem digits?_eq_self (h : ∀ c ∈ s, c.isDigit) : digits? s = some s := by
  cases s with
  | nil => rfl
  | cons c s => exact Numeral.ungroup?_eq_some (List.cons_ne_nil c s) h

/-- Nothing that goes on with a run of digits stands in front. -/
def EndsRun (s : List Char) : Prop :=
  Scan.Ends (fun c : Char => c.isDigit || c == '_') s

theorem digitRun_append (hrun : ∀ c ∈ run, c.isDigit) (hrest : EndsRun rest) :
    digitRun (run ++ rest) = (run, rest) := by
  have hpart : ∀ c ∈ run, (c.isDigit || c == '_') = true := fun c hc => by simp [hrun c hc]
  rw [digitRun, List.span_eq_takeWhile_dropWhile, Scan.takeWhile_append_of_ends hpart hrest,
    Scan.dropWhile_append_of_ends hpart hrest]

theorem fractionRun_pointed {fraction exponent : List Char} (hdigits : ∀ c ∈ fraction, c.isDigit)
    (hends : EndsRun exponent) :
    fractionRun ('.' :: (fraction ++ exponent)) = (fraction, exponent) :=
  digitRun_append hdigits hends

/-- Once the runs of digits are known, only the exponent is left to be read. -/
theorem ofChars?_append {whole fraction exponent : List Char} (hwhole : ∀ c ∈ whole, c.isDigit)
    (hends : EndsRun rest) (hrest : fractionRun rest = (fraction, exponent))
    (hfraction : ∀ c ∈ fraction, c.isDigit) :
    ofChars? (whole ++ rest) = (exponent? exponent).bind fun n =>
      if whole.isEmpty && fraction.isEmpty then none
      else some ⟨Numeral.natOfDigits (whole ++ fraction), n - fraction.length⟩ := by
  simp only [ofChars?, digitRun_append hwhole hends, hrest, digits?_eq_self hwhole,
    digits?_eq_self hfraction]
  rfl

/-- Digits and the exponent of the unit are the decimal of that coefficient and exponent. -/
theorem ofChars?_expansion (n : Nat) :
    ofChars? (Nat.toDigits 10 n ++ "e-1074".toList) = some ⟨n, -1074⟩ := by
  have hends : EndsRun "e-1074".toList := Scan.ends_cons.2 (by decide)
  have hfraction : fractionRun "e-1074".toList = ([], "e-1074".toList) := rfl
  have hexponent : exponent? "e-1074".toList = some (-1074) := by decide
  have hread := ofChars?_append (fun c => isDigit_of_mem_toDigits (n := n)) hends hfraction
    (List.forall_mem_nil _)
  rw [hread, hexponent]
  simp [Numeral.natOfDigits]

end Decimal

namespace Magnitude

/-- The exact expansion reads back. -/
theorem ofUnsigned?_expansion {m : Magnitude} (hm : m.units ≠ 0) :
    Binary64.ofUnsigned? false m.expansion = some (.finite false m) := by
  unfold expansion
  -- the exponent of the unit becomes a variable, so that its powers are not computed
  generalize hk : 1074 = k
  have hunit : unitsPerOne = Nat.pow 2 k := by
    unfold unitsPerOne
    simp only [hk]
  have hexponent : (-1074 : Int) = -(k : Int) := by omega
  obtain ⟨c, hc⟩ := List.exists_mem_of_ne_nil _
    (Nat.toDigits_ne_nil (n := m.units * Nat.pow 5 k) (b := 10))
  rw [Binary64.ofUnsigned?,
    Binary64.ofWord?_of_isDigit (List.mem_append_left _ hc) (isDigit_of_mem_toDigits hc),
    Decimal.ofChars?_expansion, hexponent]
  exact congrArg some (Decimal.round_expansion false hm hunit (by omega) (by omega))

/-- The text of a magnitude reads back. -/
theorem ofUnsigned?_text (m : Magnitude) :
    Binary64.ofUnsigned? false m.text = some (.finite false m) := by
  rcases m.text_cases with ⟨hzero, h⟩ | ⟨-, -, h⟩ | ⟨hne, h⟩
  · obtain rfl : m = .zero := eq_of_units hzero
    rw [h]
    decide +kernel
  · exact h
  · rw [h]
    exact ofUnsigned?_expansion hne

theorem sign_text (m : Magnitude) : Numeral.sign m.text = (false, m.text) := by
  have hreads := m.ofUnsigned?_text
  rcases htext : m.text with - | ⟨c, s⟩
  · rfl
  · rw [htext] at hreads
    exact sign_of_isDecimalStart (Binary64.isDecimalStart_of_ofUnsigned? hreads) s

end Magnitude

/-- Every double that is a number reads back. -/
theorem Binary64.ofText?_chars {x : Binary64} (hx : x ≠ .nan) : ofText? x.chars = some x := by
  rcases x.chars_cases with rfl | ⟨negative, rfl, h⟩ | ⟨negative, m, rfl, h⟩
  · exact absurd rfl hx
  · rw [h]
    -- the infinities are two texts
    cases negative <;> decide +kernel
  · rw [h, ofText?, folded_eq_self, ofChars?]
    · cases negative with
      | false =>
        show ofUnsigned? (Numeral.sign m.text).1 (Numeral.sign m.text).2 = _
        rw [m.sign_text, m.ofUnsigned?_text]
      | true =>
        show ofUnsigned? true m.text = _
        rw [ofUnsigned?_withSign, m.ofUnsigned?_text]
        rfl
    · intro c hc
      rcases List.mem_append.1 hc with hc | hc
      · cases negative
        · cases hc
        · rw [List.mem_singleton.1 hc]
          decide
      · exact isFolded_of_isGraphic (isGraphic_of_isDecimalChar (m.text_chars c hc))

end RrdCache
