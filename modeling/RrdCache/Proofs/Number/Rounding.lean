/-
RrdCache/Proofs/Number/Rounding.lean

Rounding is exact where it can be.  A quotient that is the value of a double, in whatever
terms it is given, rounds to that double (`Magnitude.round_mul`): the place of the last bit
is low enough for the division to leave no remainder.  In particular the exact expansion of
a double rounds to it (`Decimal.round_expansion`).
-/
import Mathlib.Algebra.Group.Nat.Defs
import RrdCache.Number.Decimal

namespace RrdCache

theorem unitsPerOne_pos : 0 < unitsPerOne := by
  decide +kernel

/-- A division without a remainder is not rounded. -/
theorem roundDiv_mul (q : Nat) {b : Nat} (hb : 0 < b) : roundDiv (q * b) b = q := by
  rw [roundDiv, Nat.mul_mod_left, Nat.mul_div_cancel q hb, if_pos (by omega)]

namespace Magnitude

theorem eq_of_units {m n : Magnitude} (h : m.units = n.units) : m = n := by
  cases m
  cases n
  cases h
  rfl

/-- Below its last bit a magnitude has no bits, and above it at most 53. -/
theorem lastBit_spec (m : Magnitude) :
    ∃ q, q < 2 ^ 53 ∧ lastBit m.units ≤ 2045 ∧ m.units = q * 2 ^ lastBit m.units := by
  obtain ⟨s, k, hs, hk, hunits⟩ := m.representable
  simp only [Nat.pow_eq] at hs hunits
  by_cases hzero : m.units = 0
  · refine ⟨0, by decide, ?_, by rw [hzero, Nat.zero_mul]⟩
    rw [hzero]
    decide
  -- the exponent that the magnitude was given with is at least as high as its last bit
  have hbound : m.units < 2 ^ (53 + k) := by
    rw [hunits, Nat.pow_add]
    exact Nat.mul_lt_mul_of_pos_right hs (Nat.two_pow_pos k)
  have hlog : m.units.log2 < 53 + k := (Nat.log2_lt hzero).2 hbound
  have hlast : lastBit m.units ≤ k := by
    rw [lastBit]
    omega
  have hsplit : m.units = s * 2 ^ (k - lastBit m.units) * 2 ^ lastBit m.units := by
    rw [Nat.mul_assoc, ← Nat.pow_add, Nat.sub_add_cancel hlast]
    exact hunits
  refine ⟨_, ?_, Nat.le_trans hlast hk, hsplit⟩
  -- the magnitude has at most 53 bits from the last one on
  have htop : m.units < 2 ^ 53 * 2 ^ lastBit m.units := by
    rw [← Nat.pow_add]
    refine Nat.lt_of_lt_of_le Nat.lt_log2_self (Nat.pow_le_pow_right (by decide) ?_)
    rw [lastBit]
    omega
  exact Nat.lt_of_mul_lt_mul_right (Nat.lt_of_le_of_lt (Nat.le_of_eq hsplit.symm) htop)

/-- The value of a magnitude rounds to that magnitude. -/
theorem round_mul (m : Magnitude) {b : Nat} (hb : 0 < b) : round (m.units * b) b = some m := by
  obtain ⟨q, hq, hlast, hunits⟩ := m.lastBit_spec
  have hquotient : m.units * b / b = m.units := Nat.mul_div_cancel _ hb
  have hexact : roundDiv (m.units * b) (b * 2 ^ lastBit m.units) = q := by
    have hterms : m.units * b = q * (b * 2 ^ lastBit m.units) := by
      conv => lhs; rw [hunits]
      rw [Nat.mul_assoc, Nat.mul_comm b]
    rw [hterms]
    exact roundDiv_mul q (Nat.mul_pos hb (Nat.two_pow_pos _))
  simp only [round, hquotient, Nat.pow_eq, hexact]
  rw [if_neg (Nat.ne_of_lt hq), scale?, dif_pos ⟨hq, hlast⟩]
  exact congrArg some (eq_of_units hunits.symm)

end Magnitude

theorem Binary64.round_mul (negative : Bool) (m : Magnitude) {b : Nat} (hb : 0 < b) :
    Binary64.round negative (m.units * b) b = .finite negative m := by
  unfold Binary64.round
  rw [m.round_mul hb]

/-! ### Expansions -/

theorem log2_mul_five_pow {u : Nat} (hu : u ≠ 0) (k : Nat) : 2 * k ≤ (u * 5 ^ k).log2 := by
  have hpow : 2 ^ (2 * k) ≤ 5 ^ k := by
    rw [Nat.pow_mul]
    exact Nat.pow_le_pow_left (by decide) k
  have hpos : 0 < u * 5 ^ k := Nat.mul_pos (Nat.pos_of_ne_zero hu) (Nat.pow_pos (by decide))
  refine (Nat.le_log2 (Nat.ne_of_gt hpos)).2 (Nat.le_trans hpow ?_)
  exact Nat.le_mul_of_pos_left _ (Nat.pos_of_ne_zero hu)

/-- A magnitude written out over a power of ten, a unit being that power of five, rounds to
itself.  The power is the one of the unit, and it stays a variable so that nothing computes it. -/
theorem Decimal.round_expansion (negative : Bool) {m : Magnitude} (hm : m.units ≠ 0) {k : Nat}
    (hunit : unitsPerOne = Nat.pow 2 k) (hpos : 0 < k) (hk : k < 1076) :
    Decimal.round negative ⟨m.units * Nat.pow 5 k, -(k : Int)⟩ = .finite negative m := by
  simp only [Nat.pow_eq] at hunit ⊢
  have hlog := log2_mul_five_pow hm k
  have hcoefficient : m.units * 5 ^ k ≠ 0 :=
    Nat.mul_ne_zero hm (Nat.ne_of_gt (Nat.pow_pos (by decide)))
  have hterms : m.units * 5 ^ k * unitsPerOne = m.units * 10 ^ k := by
    rw [hunit, Nat.mul_assoc, ← Nat.mul_pow]
  have hpower : (-(k : Int)).natAbs = k := by omega
  unfold Decimal.round
  simp only [hpower, Nat.pow_eq, hterms]
  rw [if_neg hcoefficient, if_neg (by omega), if_neg (by omega)]
  exact Binary64.round_mul negative m (Nat.pow_pos (by decide))

end RrdCache
