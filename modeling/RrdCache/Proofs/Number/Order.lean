/-
RrdCache/Proofs/Number/Order.lean

The order of values is that of exact numbers.  A whole number stands for itself and a finite
double for a fraction; the infinities stand below and above all fractions, and what is no
number stands for nothing.  Values are in order exactly where their numbers are
(`Scalar.le_iff`): nothing is rounded before whole numbers and doubles are compared.
-/
import Mathlib.Algebra.Order.Field.Rat
import Mathlib.Algebra.Order.Ring.Cast
import Mathlib.Order.WithBot
import RrdCache.Proofs.Number.Rounding
import RrdCache.Scalar

namespace RrdCache

/-- Fractions with an infinity at either end. -/
abbrev Extended := WithBot (WithTop ℚ)

/-- A fraction among the extended ones. -/
def Extended.ofRat (q : ℚ) : Extended :=
  ((q : WithTop ℚ) : WithBot (WithTop ℚ))

theorem Extended.ofRat_le_iff {p q : ℚ} : ofRat p ≤ ofRat q ↔ p ≤ q := by
  rw [ofRat, ofRat, WithBot.coe_le_coe, WithTop.coe_le_coe]

theorem Extended.ofRat_ne_top (q : ℚ) : ofRat q ≠ ⊤ :=
  fun h => WithTop.coe_ne_top (WithBot.coe_inj.1 h)

/-- The fraction that so many units are. -/
def fraction (units : Int) : ℚ :=
  units / unitsPerOne

theorem fraction_le_iff {a b : Int} : fraction a ≤ fraction b ↔ a ≤ b := by
  have hpos : (0 : ℚ) < unitsPerOne := Nat.cast_pos.2 unitsPerOne_pos
  rw [fraction, fraction, div_le_div_iff_of_pos_right hpos, Int.cast_le]

theorem fraction_neg (units : Int) : fraction (-units) = -fraction units := by
  rw [fraction, fraction, Int.cast_neg, neg_div]

namespace Place

/-- The number in a place. -/
def number : Place → Extended
  | bottom => ⊥
  | point units => .ofRat (fraction units)
  | top => ⊤

theorem number_ofInt (i : Int) : (ofInt i).number = .ofRat i := by
  have hne : (unitsPerOne : ℚ) ≠ 0 := Nat.cast_ne_zero.2 (Nat.ne_of_gt unitsPerOne_pos)
  rw [ofInt, number, fraction, Int.cast_mul, Int.cast_natCast, mul_div_cancel_right₀ _ hne]

/-- Places are in order as their numbers are. -/
theorem le_iff {p q : Place} : p.le q = true ↔ p.number ≤ q.number := by
  cases p with
  | bottom => exact iff_of_true rfl bot_le
  | point a =>
    cases q with
    | bottom => exact iff_of_false Bool.false_ne_true (WithBot.not_coe_le_bot _)
    | point b =>
      rw [le, decide_eq_true_iff, number, number, Extended.ofRat_le_iff, fraction_le_iff]
    | top => exact iff_of_true rfl le_top
  | top =>
    cases q with
    | bottom => exact iff_of_false Bool.false_ne_true (WithBot.not_coe_le_bot _)
    | point b =>
      refine iff_of_false Bool.false_ne_true fun h => ?_
      exact Extended.ofRat_ne_top _ (top_le_iff.1 h)
    | top => exact iff_of_true rfl le_top

end Place

/-- The number that a double is. -/
def Binary64.number? : Binary64 → Option Extended
  | nan => none
  | infinite true => some ⊥
  | infinite false => some ⊤
  | finite true m => some (.ofRat (-fraction m.units))
  | finite false m => some (.ofRat (fraction m.units))

namespace Scalar

/-- The number that a value is. -/
def number? : Scalar → Option Extended
  | int i => some (.ofRat i)
  | float x => x.number?
  | _ => none

/-- A whole number or a double. -/
def IsNumber : Scalar → Prop
  | int _ | float _ => True
  | _ => False

theorem number?_eq_map {v : Scalar} (h : v.IsNumber) : v.number? = v.place?.map Place.number := by
  cases v with
  | int i => rw [number?, place?, Option.map_some, Place.number_ofInt]
  | float x =>
    rw [number?, place?]
    rcases x with - | (- | -) | ⟨- | -, m⟩
    · rfl
    · rfl
    · rfl
    · rfl
    · rw [Binary64.number?, ← fraction_neg]
      rfl
  | null | bool _ | text _ | blank => cases h

/-- Numbers are in order as they are exactly, and what is no number is in no order. -/
theorem le_iff {a b : Scalar} (ha : a.IsNumber) (hb : b.IsNumber) :
    a.le b = true ↔ ∃ p q, a.number? = some p ∧ b.number? = some q ∧ p ≤ q := by
  have hle : a.le b = (a.place?.any fun p => b.place?.any p.le) := by
    rw [le]
    · rcases a.place? with - | p <;> rcases b.place? with - | q <;> rfl
    · rintro s t rfl -
      exact ha
  rw [number?_eq_map ha, number?_eq_map hb, hle]
  rcases a.place? with - | p
  · simp
  · rcases b.place? with - | q
    · simp
    · simp [Place.le_iff]

end Scalar

end RrdCache
