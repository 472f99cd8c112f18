import Mathlib.Algebra.Order.Field.Basic
import Mathlib.Data.Rat.Cast.Order
import Mathlib.Order.Monotone.Basic
import Mathlib.Tactic.Linarith
import Mathlib.Tactic.Ring
import GatewayEnrichment.Binary.Basic

/-! Rounding to the nearest pattern of a format. The patterns stand for increasing values, infinity
for the power of two that comes next behind the finite ones. A quotient is rounded past a pattern
exactly when it lies beyond the middle between this pattern and the next, or in the middle with the
pattern odd; all else about rounding follows from that. -/

namespace GatewayEnrichment

theorem abs_sub_le_abs_sub_iff {q a b : ℚ} :
    |a - q| ≤ |b - q| ↔ 0 ≤ (b - a) * (a + b - 2 * q) := by
  have squares : (b - q) ^ 2 - (a - q) ^ 2 = (b - a) * (a + b - 2 * q) := by ring
  rw [← sq_le_sq, ← sub_nonneg, squares]

namespace Format

structure Standard (f : Format) : Prop where
  fraction : 0 < f.fraction
  exponent : 2 ≤ f.exponent

theorem standard_single : single.Standard := ⟨by decide, by decide⟩

theorem standard_double : double.Standard := ⟨by decide, by decide⟩

theorem one_pos (f : Format) : 0 < f.one := Nat.two_pow_pos _

variable (f : Format)

theorem units_grid {s m : Nat} (hm : m ≤ 2 ^ (f.fraction + 1)) (hs : s = 0 ∨ 2 ^ f.fraction ≤ m) :
    f.units (s * 2 ^ f.fraction + m) = m * 2 ^ s := by
  have positive : 0 < 2 ^ f.fraction := Nat.two_pow_pos _
  have double : 2 ^ (f.fraction + 1) = 2 ^ f.fraction + 2 ^ f.fraction := by
    rw [Nat.pow_succ, Nat.mul_two]
  unfold units
  simp only [Nat.pow_eq]
  by_cases low : m < 2 ^ f.fraction
  · obtain rfl : s = 0 := hs.resolve_right (Nat.not_le.mpr low)
    rw [Nat.zero_mul, Nat.zero_add, if_pos low, Nat.pow_zero, Nat.mul_one]
  · obtain ⟨r, rfl⟩ := Nat.exists_eq_add_of_le (Nat.not_lt.mp low)
    have place : s * 2 ^ f.fraction + (2 ^ f.fraction + r) = r + (s + 1) * 2 ^ f.fraction := by
      ring
    rw [place, if_neg (by rw [Nat.succ_mul]; omega), Nat.add_mul_mod_self_right,
      Nat.add_mul_div_right _ _ positive]
    rcases Nat.lt_or_ge r (2 ^ f.fraction) with inside | carried
    · rw [Nat.mod_eq_of_lt inside, Nat.div_eq_of_lt inside]
      simp
    · -- the significand is full, and the next power of two begins
      obtain rfl : r = 2 ^ f.fraction := by omega
      rw [Nat.mod_self, Nat.div_self positive, Nat.add_zero, Nat.add_comm 1 (s + 1),
        Nat.add_sub_cancel, Nat.pow_succ, ← Nat.mul_two]
      ring

theorem exists_grid (k : Nat) : ∃ s m, k = s * 2 ^ f.fraction + m ∧ m < 2 ^ (f.fraction + 1) ∧
    (s = 0 ∨ 2 ^ f.fraction ≤ m) := by
  have positive : 0 < 2 ^ f.fraction := Nat.two_pow_pos _
  rcases Nat.lt_or_ge k (2 ^ f.fraction) with low | high
  · refine ⟨0, k, by simp, ?_, .inl rfl⟩
    rw [Nat.pow_succ]
    omega
  · refine ⟨k / 2 ^ f.fraction - 1, 2 ^ f.fraction + k % 2 ^ f.fraction, ?_, ?_, .inr (by omega)⟩
    · have whole : 1 ≤ k / 2 ^ f.fraction := (Nat.one_le_div_iff positive).mpr high
      rw [← Nat.add_assoc, ← Nat.succ_mul, Nat.succ_eq_add_one, Nat.sub_add_cancel whole,
        Nat.mul_comm, Nat.div_add_mod]
    · have small : k % 2 ^ f.fraction < 2 ^ f.fraction := Nat.mod_lt _ positive
      rw [Nat.pow_succ]
      omega

theorem strictMono_units : StrictMono f.units := by
  refine strictMono_nat_of_lt_succ fun k => ?_
  obtain ⟨s, m, rfl, small, place⟩ := f.exists_grid k
  rw [f.units_grid (Nat.le_of_lt small) place, Nat.add_assoc,
    f.units_grid small (place.imp_right fun h => Nat.le_succ_of_le h)]
  exact Nat.mul_lt_mul_of_pos_right (Nat.lt_succ_self m) (Nat.two_pow_pos s)

theorem units_zero : f.units 0 = 0 := if_pos (Nat.two_pow_pos _)

/-- The middle between a pattern and the next lies before `q`, or it is `q` and the pattern is
odd. -/
def Passed (k : Nat) (q : ℚ) : Prop :=
  (f.units k + f.units (k + 1) : ℚ) < 2 * q ∨
    (f.units k + f.units (k + 1) : ℚ) = 2 * q ∧ k % 2 = 1

variable {f}

theorem Passed.le {k : Nat} {q : ℚ} (h : f.Passed k q) :
    (f.units k + f.units (k + 1) : ℚ) ≤ 2 * q :=
  h.elim le_of_lt fun h => h.1.le

theorem Passed.mono {k : Nat} {q r : ℚ} (h : f.Passed k q) (le : q ≤ r) : f.Passed k r := by
  rcases le.lt_or_eq with lt | rfl
  · exact .inl (lt_of_le_of_lt h.le (by linarith))
  · exact h

section

variable (n d : Nat)

theorem steps_lt (f : Format) :
    n / d / 2 ^ ((n / d).log2 - f.fraction) < 2 ^ (f.fraction + 1) := by
  rw [Nat.div_lt_iff_lt_mul (Nat.two_pow_pos _), ← Nat.pow_add]
  exact Nat.lt_of_lt_of_le Nat.lt_log2_self (Nat.pow_le_pow_right (by decide) (by omega))

theorem le_steps (h : f.fraction ≤ (n / d).log2) (hq : n / d ≠ 0) :
    2 ^ f.fraction ≤ n / d / 2 ^ ((n / d).log2 - f.fraction) := by
  rw [Nat.le_div_iff_mul_le (Nat.two_pow_pos _), ← Nat.pow_add]
  have whole : f.fraction + ((n / d).log2 - f.fraction) = (n / d).log2 := by omega
  rw [whole]
  exact Nat.log2_self_le hq

end

section

variable (hf : 0 < f.fraction)

include hf

/-- The two candidates of `nearest`: the pattern at or below the quotient and the next one. -/
theorem exists_candidate (n : Nat) {d : Nat} (hd : 0 < d) : ∃ s b r, n = d * 2 ^ s * b + r ∧
    r < d * 2 ^ s ∧ (s * 2 ^ f.fraction + b) % 2 = b % 2 ∧
    f.units (s * 2 ^ f.fraction + b) = b * 2 ^ s ∧
    f.units (s * 2 ^ f.fraction + b + 1) = (b + 1) * 2 ^ s ∧
    f.nearest n d = min f.infinity (s * 2 ^ f.fraction + b +
      if 2 * r > d * 2 ^ s ∨ (2 * r = d * 2 ^ s ∧ b % 2 = 1) then 1 else 0) := by
  have small := steps_lt n d f
  have large : (n / d).log2 - f.fraction = 0 ∨
      2 ^ f.fraction ≤ n / d / 2 ^ ((n / d).log2 - f.fraction) := by
    by_cases hlog : f.fraction < (n / d).log2
    · refine .inr (le_steps n d (Nat.le_of_lt hlog) fun h0 => ?_)
      rw [h0] at hlog
      exact Nat.not_lt_zero _ hlog
    · exact .inl (by omega)
  rw [Nat.div_div_eq_div_mul] at small large
  refine ⟨(n / d).log2 - f.fraction, n / (d * 2 ^ ((n / d).log2 - f.fraction)),
    n % (d * 2 ^ ((n / d).log2 - f.fraction)), (Nat.div_add_mod _ _).symm,
    Nat.mod_lt _ (Nat.mul_pos hd (Nat.two_pow_pos _)), ?_,
    f.units_grid (Nat.le_of_lt small) large, ?_, rfl⟩
  · obtain ⟨p, hp⟩ : ∃ p, f.fraction = p + 1 := ⟨f.fraction - 1, by omega⟩
    rw [hp, Nat.pow_succ, ← Nat.mul_assoc, Nat.mul_comm, Nat.mul_add_mod]
  · rw [Nat.add_assoc]
    exact f.units_grid small (large.imp_right fun h => Nat.le_succ_of_le h)

theorem lt_nearest_iff (k n : Nat) {d : Nat} (hd : 0 < d) :
    k < f.nearest n d ↔ k < f.infinity ∧ f.Passed k (n / d) := by
  obtain ⟨s, b, r, rfl, small, parity, lower, upper, nearest⟩ := f.exists_candidate hf n hd
  rw [nearest, lt_min_iff]
  refine and_congr_right fun _ => ?_
  have step : 0 < 2 ^ s := Nat.two_pow_pos s
  have quotient : (2 * (((d * 2 ^ s * b + r : Nat) : ℚ) / d)) * d =
      2 * (d * 2 ^ s * b + r : Nat) := by
    rw [mul_assoc, div_mul_cancel₀ _ (by exact_mod_cast hd.ne')]
  have passed : f.Passed k ((d * 2 ^ s * b + r : Nat) / d) ↔
      (f.units k + f.units (k + 1)) * d < 2 * (d * 2 ^ s * b + r) ∨
        (f.units k + f.units (k + 1)) * d = 2 * (d * 2 ^ s * b + r) ∧ k % 2 = 1 := by
    have positive : (0 : ℚ) < d := by exact_mod_cast hd
    unfold Passed
    rw [← mul_lt_mul_iff_left₀ positive, ← mul_left_inj' positive.ne', quotient]
    norm_cast
  rw [passed]
  rcases Nat.lt_trichotomy k (s * 2 ^ f.fraction + b) with before | rfl | behind
  · -- both ends of the interval lie at or below the quotient
    have first : f.units k < b * 2 ^ s := lower ▸ f.strictMono_units before
    have second : f.units (k + 1) ≤ b * 2 ^ s := lower ▸ f.strictMono_units.monotone before
    have middle : (f.units k + f.units (k + 1)) * d < 2 * (d * 2 ^ s * b + r) := by
      calc (f.units k + f.units (k + 1)) * d
          < (2 * (b * 2 ^ s)) * d := Nat.mul_lt_mul_of_pos_right (by omega) hd
        _ = 2 * (d * 2 ^ s * b) := by ring
        _ ≤ 2 * (d * 2 ^ s * b + r) := Nat.mul_le_mul_left 2 (Nat.le_add_right _ r)
    exact iff_of_true (Nat.lt_of_lt_of_le before (Nat.le_add_right _ _)) (.inl middle)
  · have sum : (f.units (s * 2 ^ f.fraction + b) + f.units (s * 2 ^ f.fraction + b + 1)) * d =
        2 * (d * 2 ^ s * b) + d * 2 ^ s := by
      rw [lower, upper]
      ring
    rw [sum, parity]
    split
    · next up => exact iff_of_true (Nat.lt_succ_self _) (by omega)
    · next down => exact iff_of_false (Nat.lt_irrefl _) (by omega)
  · -- both ends lie past the quotient
    have first : (b + 1) * 2 ^ s ≤ f.units k := upper ▸ f.strictMono_units.monotone behind
    have second : (b + 1) * 2 ^ s < f.units (k + 1) :=
      upper ▸ f.strictMono_units (Nat.lt_succ_of_le behind)
    have middle : 2 * (d * 2 ^ s * b + r) < (f.units k + f.units (k + 1)) * d := by
      calc 2 * (d * 2 ^ s * b + r)
          < 2 * (d * 2 ^ s * b + d * 2 ^ s) := by omega
        _ = (2 * ((b + 1) * 2 ^ s)) * d := by ring
        _ ≤ (f.units k + f.units (k + 1)) * d := Nat.mul_le_mul_right d (by omega)
    refine iff_of_false ?_ (by omega)
    split <;> omega

theorem nearest_le_nearest {n d n' d' : Nat} (hd : 0 < d) (hd' : 0 < d')
    (h : (n / d : ℚ) ≤ n' / d') : f.nearest n d ≤ f.nearest n' d' := by
  refine le_of_forall_lt fun k hk => ?_
  obtain ⟨finite, passed⟩ := (lt_nearest_iff hf k n hd).mp hk
  exact (lt_nearest_iff hf k n' hd').mpr ⟨finite, passed.mono h⟩

theorem nearest_units {k : Nat} (hk : k ≤ f.infinity) {n d : Nat} (hd : 0 < d)
    (h : (n / d : ℚ) = f.units k) : f.nearest n d = k := by
  refine eq_of_forall_lt_iff fun j => ?_
  rw [lt_nearest_iff hf j n hd, h]
  constructor
  · rintro ⟨-, passed⟩
    by_contra behind
    have first : (f.units k : ℚ) ≤ f.units j :=
      Nat.cast_le.mpr (f.strictMono_units.monotone (Nat.not_lt.mp behind))
    have second : (f.units j : ℚ) < f.units (j + 1) :=
      Nat.cast_lt.mpr (f.strictMono_units (Nat.lt_succ_self j))
    have := passed.le
    linarith
  · intro before
    have first : (f.units j : ℚ) < f.units k := Nat.cast_lt.mpr (f.strictMono_units before)
    have second : (f.units (j + 1) : ℚ) ≤ f.units k :=
      Nat.cast_le.mpr (f.strictMono_units.monotone before)
    exact ⟨Nat.lt_of_lt_of_le before hk, .inl (by linarith)⟩

theorem nearest_spec (n : Nat) {d : Nat} (hd : 0 < d) (finite : f.nearest n d < f.infinity)
    (j : Nat) :
    |(f.units (f.nearest n d) : ℚ) - n / d| ≤ |(f.units j : ℚ) - n / d| ∧
      (|(f.units j : ℚ) - n / d| ≤ |(f.units (f.nearest n d) : ℚ) - n / d| →
        j = f.nearest n d ∨ f.nearest n d % 2 = 0) := by
  have passed (i : Nat) := lt_nearest_iff hf i n hd
  generalize f.nearest n d = k at *
  rw [abs_sub_le_abs_sub_iff, abs_sub_le_abs_sub_iff]
  rcases Nat.lt_trichotomy j k with before | rfl | behind
  · obtain ⟨i, rfl⟩ : ∃ i, k = i + 1 := ⟨k - 1, by omega⟩
    obtain ⟨-, middle⟩ := (passed i).mp (Nat.lt_succ_self i)
    have least : (f.units j : ℚ) ≤ f.units i :=
      Nat.cast_le.mpr (f.strictMono_units.monotone (Nat.le_of_lt_succ before))
    have lt : (f.units j : ℚ) < f.units (i + 1) := Nat.cast_lt.mpr (f.strictMono_units before)
    have le := middle.le
    refine ⟨mul_nonneg_of_nonpos_of_nonpos (by linarith) (by linarith), fun tie => .inr ?_⟩
    have near : (2 : ℚ) * (n / d) ≤ f.units j + f.units (i + 1) := by
      have := nonneg_of_mul_nonneg_right tie (by linarith)
      linarith
    rcases middle with middle | ⟨-, odd⟩
    · linarith
    · omega
  · exact ⟨by simp, fun _ => .inl rfl⟩
  · have middle : ¬ f.Passed k (n / d) := fun h => Nat.lt_irrefl k ((passed k).mpr ⟨finite, h⟩)
    obtain ⟨le, even⟩ := not_or.mp middle
    have least : (f.units (k + 1) : ℚ) ≤ f.units j :=
      Nat.cast_le.mpr (f.strictMono_units.monotone behind)
    have lt : (f.units k : ℚ) < f.units j := Nat.cast_lt.mpr (f.strictMono_units behind)
    refine ⟨mul_nonneg (by linarith) (by linarith), fun tie => .inr ?_⟩
    have near : (f.units j : ℚ) + f.units k ≤ 2 * (n / d) := by
      have := nonpos_of_mul_nonneg_right tie (by linarith)
      linarith
    have odd : ¬ k % 2 = 1 := fun odd => even ⟨by linarith, odd⟩
    omega

end

section

variable (hf : f.Standard)

include hf

theorem Standard.two_le : 2 ≤ 2 ^ f.exponent :=
  Nat.pow_le_pow_right (n := 2) (by decide) (Nat.le_of_succ_le hf.exponent)

theorem Standard.exists_infinity_eq : ∃ i, f.infinity = 2 * i + 2 := by
  have two := hf.two_le
  obtain ⟨p, hp⟩ : ∃ p, f.fraction = p + 1 := ⟨f.fraction - 1, by have := hf.fraction; omega⟩
  have positive : 0 < (2 ^ f.exponent - 1) * 2 ^ p := Nat.mul_pos (by omega) (Nat.two_pow_pos p)
  have whole : f.infinity = 2 * ((2 ^ f.exponent - 1) * 2 ^ p) := by
    unfold infinity
    rw [hp, Nat.pow_eq, Nat.pow_eq, Nat.pow_succ]
    ring
  exact ⟨(2 ^ f.exponent - 1) * 2 ^ p - 1, by omega⟩

theorem Standard.infinity_pos : 0 < f.infinity := by
  obtain ⟨i, hi⟩ := hf.exists_infinity_eq
  omega

theorem passed_last_iff (q : ℚ) : f.Passed (f.infinity - 1) q ↔
    (f.units (f.infinity - 1) + f.units f.infinity : ℚ) ≤ 2 * q := by
  obtain ⟨i, hi⟩ := hf.exists_infinity_eq
  have last : f.infinity - 1 + 1 = f.infinity := by omega
  have odd : (f.infinity - 1) % 2 = 1 := by omega
  unfold Passed
  rw [last, le_iff_lt_or_eq]
  exact or_congr_right (and_iff_left odd)

theorem infinity_le_nearest_iff (n : Nat) {d : Nat} (hd : 0 < d) :
    f.infinity ≤ f.nearest n d ↔
      (f.units (f.infinity - 1) + f.units f.infinity : ℚ) ≤ 2 * (n / d) := by
  have positive := hf.infinity_pos
  have before : f.infinity ≤ f.nearest n d ↔ f.infinity - 1 < f.nearest n d := by omega
  rw [before, lt_nearest_iff hf.fraction _ n hd, and_iff_right (by omega), passed_last_iff hf]

end

end Format

end GatewayEnrichment
