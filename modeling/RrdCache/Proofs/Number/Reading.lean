/-
RrdCache/Proofs/Number/Reading.lean

How free text is read as a number.  White space around it is cut off and digits of other
scripts are folded to ASCII; graphic ASCII goes through both as it is.  Then comes a sign,
and a decimal begins with a digit, a point or an exponent.
-/
import Mathlib.Data.List.TakeDrop
import RrdCache.Number.Decimal
import RrdCache.Proofs.Text.Token

namespace RrdCache

/-- A character that reading a number leaves as it is, wherever it stands. -/
def IsFolded (c : Char) : Prop :=
  isPadding c = false ∧ foldDigit c = c

instance (c : Char) : Decidable (IsFolded c) :=
  inferInstanceAs (Decidable (_ ∧ _))

theorem isFolded_of_isGraphic {c : Char} (h : isGraphic c) : IsFolded c := by
  have hall : ∀ n < 0x7F, 0x21 ≤ n → IsFolded (Char.ofNat n) := by decide +kernel
  obtain ⟨hlow, hhigh⟩ := isGraphic_iff.1 h
  have hc := hall c.toNat (by omega) hlow
  rwa [Char.ofNat_toNat] at hc

theorem isDecimalDigit_of_isDigit {c : Char} (h : c.isDigit) : isDecimalDigit c := by
  have hall : ∀ n < 58, 48 ≤ n → isDecimalDigit (Char.ofNat n) := by decide +kernel
  obtain ⟨hlow, hhigh⟩ := isDigit_iff.1 h
  have hc := hall c.toNat (by omega) hlow
  rwa [Char.ofNat_toNat] at hc

theorem isBlank_of_isDigit {c : Char} (h : c.isDigit) : isBlank c = false := by
  have hall : ∀ n < 58, 48 ≤ n → isBlank (Char.ofNat n) = false := by decide +kernel
  obtain ⟨hlow, hhigh⟩ := isDigit_iff.1 h
  have hc := hall c.toNat (by omega) hlow
  rwa [Char.ofNat_toNat] at hc

theorem dropWhile_eq_self {α : Type} {p : α → Bool} {s : List α} (h : ∀ a ∈ s, p a = false) :
    s.dropWhile p = s := by
  cases s with
  | nil => rfl
  | cons a s => rw [List.dropWhile_cons_of_neg (by simp [h a List.mem_cons_self])]

theorem trim_eq_self {α : Type} {p : α → Bool} {s : List α} (h : ∀ a ∈ s, p a = false) :
    trim p s = s := by
  rw [trim, dropWhile_eq_self h, trimEnd, dropWhile_eq_self, List.reverse_reverse]
  exact fun a ha => h a (List.mem_reverse.1 ha)

theorem folded_eq_self {s : List Char} (h : ∀ c ∈ s, IsFolded c) : Numeral.folded s = s := by
  rw [Numeral.folded, trim_eq_self fun c hc => (h c hc).1]
  calc s.map foldDigit = s.map id := List.map_congr_left fun c hc => (h c hc).2
    _ = s := List.map_id s

/-! ### Signs -/

/-- What a sign is split off from is the sign and the rest. -/
theorem sign_append (s : List Char) :
    s = (Numeral.sign s).2 ∨ s = '+' :: (Numeral.sign s).2 ∨ s = '-' :: (Numeral.sign s).2 := by
  unfold Numeral.sign
  split
  · exact .inr (.inr rfl)
  · exact .inr (.inl rfl)
  · exact .inl rfl

theorem mem_of_mem_sign {s : List Char} {c : Char} (h : c ∈ (Numeral.sign s).2) : c ∈ s := by
  rcases sign_append s with hs | hs | hs <;> rw [hs]
  · exact h
  · exact List.mem_cons_of_mem _ h
  · exact List.mem_cons_of_mem _ h

theorem mem_sign_or {s : List Char} {c : Char} (h : c ∈ s) :
    c ∈ (Numeral.sign s).2 ∨ c = '+' ∨ c = '-' := by
  rcases sign_append s with hs | hs | hs <;> rw [hs] at h
  · exact .inl h
  · exact (List.mem_cons.1 h).symm.imp_right .inl
  · exact (List.mem_cons.1 h).symm.imp_right .inr

/-! ### Words -/

theorem toLower_of_isDigit {c : Char} (h : c.isDigit) : c.toLower = c := by
  unfold Char.toLower
  rw [dif_neg]
  rintro ⟨hupper, -⟩
  have hlow : 0x41 ≤ c.toNat := hupper
  have hdigit := isDigit_iff.1 h
  omega

/-- The letters of the words that are doubles. -/
def wordLetters : List Char :=
  "infinitynan".toList

/-- A text with another character is none of the words. -/
theorem Binary64.ofWord?_eq_none {s : List Char} {c : Char} (hc : c ∈ s)
    (hletter : c.toLower ∉ wordLetters) (negative : Bool) : ofWord? negative s = none := by
  have hlower : c.toLower ∈ s.map Char.toLower := List.mem_map_of_mem hc
  have hnot : ∀ w : String, w.toList ⊆ wordLetters →
      String.ofList (s.map Char.toLower) ≠ w := by
    rintro w hw rfl
    rw [String.toList_ofList] at hw
    exact hletter (hw hlower)
  rw [ofWord?, if_neg, if_neg (hnot "nan" (by decide))]
  rintro (hw | hw)
  · exact hnot "inf" (by decide) hw
  · exact hnot "infinity" (by decide) hw

theorem Binary64.ofWord?_of_isDigit {s : List Char} {c : Char} (hc : c ∈ s) (hdigit : c.isDigit)
    (negative : Bool) : ofWord? negative s = none := by
  refine ofWord?_eq_none hc ?_ negative
  rw [toLower_of_isDigit hdigit]
  have hletters : wordLetters.all (!·.isDigit) := by decide
  intro hletter
  have hno := List.all_eq_true.1 hletters c hletter
  rw [hdigit] at hno
  cases hno

/-- A word is no finite double. -/
theorem Binary64.ofWord?_ne_finite {s : List Char} {negative sign : Bool} {m : Magnitude} :
    ofWord? negative s ≠ some (.finite sign m) := by
  rw [ofWord?]
  split
  · simp
  split <;> simp

/-! ### Decimals -/

/-- The characters that a decimal may begin with. -/
def isDecimalStart (c : Char) : Bool :=
  c.isDigit || c == '_' || c == '.' || c == 'e' || c == 'E'

theorem Decimal.ofChars?_eq_none {c : Char} (h : isDecimalStart c = false) (s : List Char) :
    ofChars? (c :: s) = none := by
  simp only [isDecimalStart, Bool.or_eq_false_iff, beq_eq_false_iff_ne] at h
  obtain ⟨⟨⟨⟨hdigit, hunderscore⟩, hpoint⟩, he⟩, hE⟩ := h
  have hrun : digitRun (c :: s) = ([], c :: s) := by
    simp [digitRun, List.span_eq_takeWhile_dropWhile, hdigit, hunderscore]
  have hfraction : fractionRun (c :: s) = ([], c :: s) := by
    rw [fractionRun]
    rintro rest ⟨⟩
    exact hpoint rfl
  have hexponent : exponent? (c :: s) = none := by
    rw [exponent?, if_neg]
    simp [he, hE]
  simp [ofChars?, hrun, hfraction, hexponent]

/-- A decimal is no sign's doing. -/
theorem sign_of_isDecimalStart {c : Char} (h : isDecimalStart c) (s : List Char) :
    Numeral.sign (c :: s) = (false, c :: s) := by
  unfold Numeral.sign
  split
  · rename_i hc
    obtain ⟨rfl, -⟩ := List.cons.inj hc
    exact absurd h (by decide)
  · rename_i hc
    obtain ⟨rfl, -⟩ := List.cons.inj hc
    exact absurd h (by decide)
  · rfl

namespace Numeral

/-- What a sign is split off from is a sign, which may be missing, and the rest. -/
theorem exists_sign (s : List Char) :
    ∃ mark, (mark = [] ∨ mark = ['+'] ∨ mark = ['-']) ∧ s = mark ++ (sign s).2 ∧
      (sign s).1 = decide (mark = ['-']) := by
  unfold sign
  split
  · exact ⟨['-'], .inr (.inr rfl), rfl, rfl⟩
  · exact ⟨['+'], .inr (.inl rfl), rfl, rfl⟩
  · exact ⟨[], .inl rfl, rfl, rfl⟩

/-- A sign in front of what begins without one is split off. -/
theorem sign_signed {mark s : List Char} (hmark : mark = [] ∨ mark = ['+'] ∨ mark = ['-'])
    (hs : sign s = (false, s)) : sign (mark ++ s) = (decide (mark = ['-']), s) := by
  rcases hmark with rfl | rfl | rfl
  · exact hs
  · rfl
  · rfl

/-- Digits are converted if they are not too many. -/
theorem value_eq_ok_iff {digits : List Char} {n : Nat} :
    value digits = .ok n ↔ digits.length ≤ digitLimit ∧ natOfDigits digits = n := by
  rw [value]
  split
  · rename_i hlength
    simp [Nat.not_le.2 hlength]
  · rename_i hlength
    simp [Nat.not_lt.1 hlength]

end Numeral

/-- What reads as a finite double begins like a decimal. -/
theorem Binary64.isDecimalStart_of_ofUnsigned? {c : Char} {s : List Char} {negative sign : Bool}
    {m : Magnitude} (h : ofUnsigned? negative (c :: s) = some (.finite sign m)) :
    isDecimalStart c := by
  rw [ofUnsigned?] at h
  rcases hword : ofWord? negative (c :: s) with - | x
  · rw [hword] at h
    by_cases hstart : isDecimalStart c
    · exact hstart
    · rw [Decimal.ofChars?_eq_none (by simpa using hstart)] at h
      cases h
  · rw [hword] at h
    obtain rfl := Option.some.inj h
    exact absurd hword ofWord?_ne_finite

end RrdCache
