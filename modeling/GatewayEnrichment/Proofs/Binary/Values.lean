import Mathlib.Algebra.Order.Field.Power
import Mathlib.Data.Rat.Floor
import Mathlib.Tactic.FieldSimp
import GatewayEnrichment.Proofs.Binary.Nearest

/-! Binary numbers as exact rationals. The value of a number is read off the fields of its pattern,
and numbers compare as their patterns do. -/

namespace GatewayEnrichment

namespace Format

def bias (f : Format) : Nat := 2 ^ (f.exponent - 1) - 1

end Format

namespace Binary

variable {f g : Format}

/-- The distance of a finite number from zero: one and the fraction, times the power of two that
the exponent field stands for; without the one, and with the least power, if the field is zero. -/
def size (x : Binary f) : ℚ :=
  let field := x.magnitude / 2 ^ f.fraction
  let fraction : ℚ := (x.magnitude % 2 ^ f.fraction : Nat) / 2 ^ f.fraction
  if field = 0 then fraction * 2 ^ (1 - f.bias : ℤ) else (1 + fraction) * 2 ^ (field - f.bias : ℤ)

def value (x : Binary f) : ℚ := if x.negative then -x.size else x.size

def isInfinite (x : Binary f) : Bool := x.magnitude == f.infinity

/-- Numbers compared by their values, with the infinities at the two ends. What is not a number
compares with nothing. -/
def AtMost (x y : Binary f) : Prop :=
  x.isNaN = false ∧ y.isNaN = false ∧
    (x.isInfinite = true ∧ x.negative = true ∨ y.isInfinite = true ∧ y.negative = false ∨
      x.isFinite = true ∧ y.isFinite = true ∧ x.value ≤ y.value)

theorem size_nonneg (x : Binary f) : 0 ≤ x.size := by
  unfold size
  dsimp only
  split <;> positivity

theorem size_eq (hf : f.Standard) (x : Binary f) :
    x.size = f.units x.magnitude / 2 ^ f.depth := by
  have half : 2 ^ 1 ≤ 2 ^ (f.exponent - 1) :=
    Nat.pow_le_pow_right (by decide) (Nat.le_sub_one_of_lt hf.exponent)
  obtain ⟨b, hb⟩ : ∃ b, f.bias = b + 1 := ⟨f.bias - 1, by unfold Format.bias; omega⟩
  have depth : f.depth = b + f.fraction := by
    unfold Format.bias at hb
    unfold Format.depth
    rw [Nat.pow_eq]
    omega
  unfold size Format.units
  simp only [Nat.pow_eq, depth, hb, pow_add]
  split
  · next zero =>
    have low : x.magnitude < 2 ^ f.fraction :=
      ((Nat.div_eq_zero_iff).mp zero).resolve_left (Nat.two_pow_pos _).ne'
    have power : (1 - (b + 1 : Nat) : ℤ) = -b := by push_cast; ring
    rw [if_pos low, Nat.mod_eq_of_lt low, power, zpow_neg, zpow_natCast]
    field_simp
  · next normal =>
    have high : ¬ x.magnitude < 2 ^ f.fraction := fun low => normal (Nat.div_eq_of_lt low)
    obtain ⟨e, he⟩ := Nat.exists_eq_succ_of_ne_zero normal
    have power : ((e + 1 : Nat) - (b + 1 : Nat) : ℤ) = e - b := by push_cast; ring
    rw [if_neg high, he, Nat.succ_eq_add_one, power, zpow_sub₀ two_ne_zero, zpow_natCast,
      zpow_natCast, Nat.add_sub_cancel]
    push_cast
    field_simp

theorem abs_value (x : Binary f) : |x.value| = x.size := by
  unfold value
  split
  · rw [abs_neg, abs_of_nonneg x.size_nonneg]
  · exact abs_of_nonneg x.size_nonneg

theorem size_le_size_iff (hf : f.Standard) {x y : Binary f} :
    x.size ≤ y.size ↔ x.magnitude ≤ y.magnitude := by
  have positive : (0 : ℚ) < 2 ^ f.depth := by positivity
  rw [size_eq hf, size_eq hf, div_le_div_iff_of_pos_right positive, Nat.cast_le,
    f.strictMono_units.le_iff_le]

theorem size_eq_zero_iff (hf : f.Standard) {x : Binary f} : x.size = 0 ↔ x.magnitude = 0 := by
  have positive : (0 : ℚ) < 2 ^ f.depth := by positivity
  rw [size_eq hf, div_eq_zero_iff, or_iff_left positive.ne', Nat.cast_eq_zero]
  exact f.strictMono_units.injective.eq_iff' f.units_zero

theorem isFinite_iff {x : Binary f} : x.isFinite = true ↔ x.magnitude < f.infinity :=
  decide_eq_true_iff

theorem isInfinite_iff {x : Binary f} : x.isInfinite = true ↔ x.magnitude = f.infinity :=
  beq_iff_eq

theorem isNaN_eq_false_iff {x : Binary f} : x.isNaN = false ↔ x.magnitude ≤ f.infinity := by
  rw [isNaN, decide_eq_false_iff_not, Nat.not_lt]

theorem isNaN_of_isFinite {x : Binary f} (h : x.isFinite = true) : x.isNaN = false :=
  isNaN_eq_false_iff.mpr (isFinite_iff.mp h).le

theorem isNaN_of_isInfinite {x : Binary f} (h : x.isInfinite = true) : x.isNaN = false :=
  isNaN_eq_false_iff.mpr (isInfinite_iff.mp h).le

theorem isFinite_or_isInfinite {x : Binary f} (h : x.isNaN = false) :
    x.isFinite = true ∨ x.isInfinite = true := by
  rw [isFinite_iff, isInfinite_iff]
  exact Nat.lt_or_eq_of_le (isNaN_eq_false_iff.mp h)

theorem size_le_of_isInfinite (hf : f.Standard) {x y : Binary f} (hx : x.isNaN = false)
    (hy : y.isInfinite = true) : x.size ≤ y.size :=
  (size_le_size_iff hf).mpr (isInfinite_iff.mp hy ▸ isNaN_eq_false_iff.mp hx)

theorem size_lt_of_isInfinite (hf : f.Standard) {x y : Binary f} (hx : x.isFinite = true)
    (hy : y.isInfinite = true) : x.size < y.size := by
  refine lt_of_not_ge fun le => ?_
  have behind := (size_le_size_iff hf).mp le
  rw [isInfinite_iff.mp hy] at behind
  exact Nat.not_le.mpr (isFinite_iff.mp hx) behind

theorem value_of_negative {x : Binary f} (h : x.negative = true) : x.value = -x.size := if_pos h

theorem value_of_positive {x : Binary f} (h : x.negative = false) : x.value = x.size :=
  if_neg (by simp [h])

theorem AtMost.value_le (hf : f.Standard) {x y : Binary f} (h : x.AtMost y) :
    x.value ≤ y.value := by
  obtain ⟨hx, hy, ⟨infinite, sign⟩ | ⟨infinite, sign⟩ | ⟨-, -, le⟩⟩ := h
  · have := size_le_of_isInfinite hf hy infinite
    have := abs_le.mp y.abs_value.le
    rw [value_of_negative sign]
    linarith
  · have := size_le_of_isInfinite hf hx infinite
    have := abs_le.mp x.abs_value.le
    rw [value_of_positive sign]
    linarith
  · exact le

theorem isFinite_zero (hf : f.Standard) : (zero : Binary f).isFinite = true :=
  isFinite_iff.mpr hf.infinity_pos

theorem size_zero (hf : f.Standard) : (zero : Binary f).size = 0 := (size_eq_zero_iff hf).mpr rfl

theorem atMost_of_value_le (hf : f.Standard) {x y : Binary f} (hx : x.isNaN = false)
    (hy : y.isNaN = false) (le : x.value ≤ y.value) : x.AtMost y := by
  have sizes := abs_le.mp x.abs_value.le
  have sizes' := abs_le.mp y.abs_value.le
  refine ⟨hx, hy, ?_⟩
  rcases isFinite_or_isInfinite hx with fx | ix
  · rcases isFinite_or_isInfinite hy with fy | iy
    · exact .inr (.inr ⟨fx, fy, le⟩)
    · cases sign : y.negative with
      | false => exact .inr (.inl ⟨iy, rfl⟩)
      | true =>
        have := size_lt_of_isInfinite hf fx iy
        rw [value_of_negative sign] at le
        linarith
  · cases sign : x.negative with
    | true => exact .inl ⟨ix, rfl⟩
    | false =>
      rw [value_of_positive sign] at le
      rcases isFinite_or_isInfinite hy with fy | iy
      · have := size_lt_of_isInfinite hf fy ix
        linarith
      · cases sign' : y.negative with
        | false => exact .inr (.inl ⟨iy, rfl⟩)
        | true =>
          have := size_zero hf ▸ size_lt_of_isInfinite hf (isFinite_zero hf) ix
          have := y.size_nonneg
          rw [value_of_negative sign'] at le
          linarith

end Binary
end GatewayEnrichment
