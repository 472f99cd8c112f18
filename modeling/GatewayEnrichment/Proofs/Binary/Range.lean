import Mathlib.Tactic.Positivity
import GatewayEnrichment.Binary.Layout
import GatewayEnrichment.Proofs.Binary.Nearest

/-! Rounding of decimals. A decimal is rounded as the quotient that it is, also where its exponent
is too large for a power to be formed, so its nearest number depends on nothing but its value and is
finite up to the middle behind the last finite number. -/

namespace GatewayEnrichment

def Decimal.value (d : Decimal) : ℚ := d.digits * 10 ^ d.exponent

namespace Decimal

theorem value_of_nonneg {d : Decimal} (h : 0 ≤ d.exponent) :
    d.value = (d.digits * 10 ^ d.exponent.toNat : Nat) := by
  obtain ⟨digits, exponent⟩ := d
  obtain ⟨n, rfl⟩ := Int.eq_ofNat_of_zero_le h
  simp [value]

theorem value_of_neg {d : Decimal} (h : d.exponent < 0) :
    d.value = d.digits / (10 ^ (-d.exponent).toNat : Nat) := by
  obtain ⟨digits, exponent⟩ := d
  obtain ⟨n, rfl⟩ := Int.exists_eq_neg_ofNat (Int.le_of_lt h)
  simp [value, div_eq_mul_inv]

theorem value_stripped (d : Decimal) (count : Nat) : (d.stripped count).value = d.value := by
  induction count generalizing d with
  | zero => rfl
  | succ count ih =>
    rw [stripped]
    split
    · next h =>
      have tens : (d.digits : ℚ) = (d.digits / 10 : Nat) * 10 := by
        exact_mod_cast (Nat.div_mul_cancel (Nat.dvd_of_mod_eq_zero h.2)).symm
      rw [ih, value, value, tens, zpow_add₀ (by norm_num)]
      ring
    · rfl

end Decimal

namespace Format

variable (f : Format)

/-- Half way from the last finite value to the power of two that comes next. -/
def reach : ℚ := (f.units (f.infinity - 1) + f.units f.infinity) / (2 * f.one)

variable {f}

theorem one_cast_pos : (0 : ℚ) < f.one := by exact_mod_cast Nat.two_pow_pos f.depth

section

variable (hf : f.Standard)

include hf

theorem not_passed_of_le {q : ℚ} (h : 2 * q ≤ 1) (k : Nat) : ¬ f.Passed k q := by
  have first : f.units 1 = 1 := if_pos (Nat.one_lt_two_pow hf.fraction.ne')
  have next : f.units 1 ≤ f.units (k + 1) := f.strictMono_units.monotone (Nat.le_add_left 1 k)
  rw [first] at next
  rintro (before | ⟨same, odd⟩)
  · have : (1 : ℚ) ≤ f.units k + f.units (k + 1) := by exact_mod_cast Nat.le_add_left_of_le next
    linarith
  · have positive : f.units 0 < f.units k := f.strictMono_units (by omega)
    have : (1 : ℚ) < f.units k + f.units (k + 1) := by
      exact_mod_cast (by omega : 1 < f.units k + f.units (k + 1))
    linarith

theorem units_infinity : f.units f.infinity = 2 ^ (f.fraction + (2 ^ f.exponent - 2)) := by
  have two := hf.two_le
  have place : f.infinity = (2 ^ f.exponent - 2) * 2 ^ f.fraction + 2 ^ f.fraction := by
    rw [infinity, Nat.pow_eq, Nat.pow_eq, ← Nat.succ_mul]
    congr 1
    omega
  rw [place, f.units_grid (Nat.pow_le_pow_right (by decide) (Nat.le_succ _)) (.inr (Nat.le_refl _)),
    ← Nat.pow_add]

end

theorem units_infinity_le (hf : f.Standard) {n e : Nat} (hn : 1 ≤ n) (large : 2 ^ f.exponent < e) :
    f.units f.infinity ≤ n * 10 ^ e * f.one := by
  rw [units_infinity hf, one, depth, Nat.pow_eq, Nat.pow_eq]
  calc 2 ^ (f.fraction + (2 ^ f.exponent - 2))
      ≤ 2 ^ (e + (2 ^ (f.exponent - 1) - 2 + f.fraction)) :=
        Nat.pow_le_pow_right (by decide) (by omega)
    _ = 2 ^ e * 2 ^ (2 ^ (f.exponent - 1) - 2 + f.fraction) := Nat.pow_add ..
    _ ≤ n * 10 ^ e * 2 ^ (2 ^ (f.exponent - 1) - 2 + f.fraction) := by
        refine Nat.mul_le_mul_right _ (Nat.le_trans ?_ (Nat.le_mul_of_pos_left _ hn))
        exact Nat.pow_le_pow_left (by decide) _

theorem two_mul_le_ten_pow {n e : Nat} (small : f.depth + n.log2 + 1 < e) :
    2 * (n * f.one) ≤ 10 ^ e := by
  have digits : n < 2 ^ (n.log2 + 1) := Nat.lt_log2_self
  calc 2 * (n * 2 ^ f.depth)
      ≤ 2 * (2 ^ (n.log2 + 1) * 2 ^ f.depth) :=
        Nat.mul_le_mul_left 2 (Nat.mul_le_mul_right _ digits.le)
    _ = 2 ^ (n.log2 + 1 + f.depth + 1) := by
        rw [← Nat.pow_add, Nat.pow_succ 2 (_ + f.depth), Nat.mul_comm]
    _ ≤ 2 ^ e := Nat.pow_le_pow_right (by decide) (by omega)
    _ ≤ 10 ^ e := Nat.pow_le_pow_left (by decide) _

theorem passed_of_units_infinity_le {k : Nat} {q : ℚ} (hk : k < f.infinity)
    (h : (f.units f.infinity : ℚ) ≤ q) : f.Passed k q := by
  have first : (f.units k : ℚ) < f.units f.infinity := Nat.cast_lt.mpr (f.strictMono_units hk)
  have second : (f.units (k + 1) : ℚ) ≤ f.units f.infinity :=
    Nat.cast_le.mpr (f.strictMono_units.monotone hk)
  exact .inl (by linarith)

end Format

namespace Binary

section

variable {f : Format} (hf : f.Standard)

include hf

theorem lt_magnitude_ofDecimal_iff (negative : Bool) (d : Decimal) (k : Nat) :
    k < (ofDecimal f negative d).magnitude ↔ k < f.infinity ∧ f.Passed k (d.value * f.one) := by
  rw [ofDecimal]
  split
  · next zero =>
    have value : d.value = 0 := by rw [Decimal.value, zero, Nat.cast_zero, zero_mul]
    refine iff_of_false (Nat.not_lt_zero k) fun passed => ?_
    exact Format.not_passed_of_le hf (by rw [value]; norm_num) k passed.2
  · next digits =>
    have positive : 1 ≤ d.digits := Nat.pos_of_ne_zero digits
    split
    · next nonneg =>
      rw [Decimal.value_of_nonneg nonneg, ← Nat.cast_mul]
      split
      · next large =>
        have size := Format.units_infinity_le hf positive large
        refine (and_iff_left_of_imp fun hk => ?_).symm
        exact Format.passed_of_units_infinity_le hk (Nat.cast_le.mpr size)
      · have quotient : ((d.digits * 10 ^ d.exponent.toNat * f.one : Nat) : ℚ) =
            (d.digits * 10 ^ d.exponent.toNat * f.one : Nat) / (1 : Nat) := by
          rw [Nat.cast_one, div_one]
        rw [quotient]
        exact Format.lt_nearest_iff hf.fraction k _ Nat.one_pos
    · next neg =>
      have tens : 0 < 10 ^ (-d.exponent).toNat := Nat.pow_pos (by decide)
      rw [Decimal.value_of_neg (Int.not_le.mp neg), div_mul_eq_mul_div, ← Nat.cast_mul]
      split
      · next small =>
        have powers := Format.two_mul_le_ten_pow small
        refine iff_of_false (Nat.not_lt_zero k) fun passed => ?_
        refine Format.not_passed_of_le hf ?_ k passed.2
        rw [← mul_div_assoc, div_le_one (by exact_mod_cast tens)]
        exact_mod_cast powers
      · exact Format.lt_nearest_iff hf.fraction k _ tens

theorem isFinite_ofDecimal_iff (negative : Bool) (d : Decimal) :
    (ofDecimal f negative d).isFinite = true ↔ d.value < f.reach := by
  have positive := hf.infinity_pos
  have past : ¬ (ofDecimal f negative d).isFinite = true ↔
      f.infinity - 1 < (ofDecimal f negative d).magnitude := by
    rw [isFinite, decide_eq_true_iff]
    omega
  rw [← not_iff_not, past, lt_magnitude_ofDecimal_iff hf, and_iff_right (by omega),
    Format.passed_last_iff hf, Format.reach, not_lt,
    div_le_iff₀ (mul_pos two_pos Format.one_cast_pos)]
  constructor <;> intro h <;> linarith

end

end Binary

end GatewayEnrichment
