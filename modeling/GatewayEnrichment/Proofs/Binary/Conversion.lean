import GatewayEnrichment.Proofs.Binary.Values

/-! Numbers brought into another format, or to a whole number. The nearest number of the other
format is taken; this keeps the order of the numbers, and whatever value the other format has. -/

namespace GatewayEnrichment

def towardZero (q : ℚ) : ℤ := if 0 ≤ q then ⌊q⌋ else ⌈q⌉

theorem towardZero_neg {q : ℚ} (h : 0 ≤ q) : towardZero (-q) = -⌊q⌋ := by
  unfold towardZero
  split
  · next both =>
    obtain rfl : q = 0 := le_antisymm (neg_nonneg.mp both) h
    simp
  · exact Int.ceil_neg

theorem towardZero_mono {q r : ℚ} (h : q ≤ r) : towardZero q ≤ towardZero r := by
  unfold towardZero
  split
  · next hq =>
    rw [if_pos (hq.trans h)]
    exact Int.floor_mono h
  · next hq =>
    split
    · next hr => exact (Int.ceil_nonpos.mpr (not_le.mp hq).le).trans (Int.floor_nonneg.mpr hr)
    · exact Int.ceil_mono h

namespace Binary

variable {f g : Format}

/-- A finite number such that no other is nearer to `q`; of two values equally near it is the one
whose last bit is zero. -/
structure IsNearest (y : Binary f) (q : ℚ) : Prop where
  finite : y.isFinite = true
  least : ∀ z : Binary f, z.isFinite = true → |y.value - q| ≤ |z.value - q|
  even : ∀ z : Binary f, z.isFinite = true → z.value ≠ y.value →
    |z.value - q| = |y.value - q| → y.magnitude % 2 = 0

theorem isNearest_of_sizes {y : Binary f} {r : ℚ} (hr : 0 ≤ r) (finite : y.isFinite = true)
    (least : ∀ z : Binary f, |y.size - r| ≤ |z.size - r|)
    (even : ∀ z : Binary f, |z.size - r| ≤ |y.size - r| → z.size = y.size ∨ y.magnitude % 2 = 0)
    (zero : r = 0 → y.magnitude = 0) : y.IsNearest (if y.negative then -r else r) := by
  generalize hq : (if y.negative then -r else r) = q
  have size : |q| = r := by
    rw [← hq]
    split
    · rw [abs_neg, abs_of_nonneg hr]
    · exact abs_of_nonneg hr
  have near : |y.value - q| = |y.size - r| := by
    rw [value, ← hq]
    split
    · rw [neg_sub_neg, abs_sub_comm]
    · rfl
  have far (z : Binary f) : |z.size - r| ≤ |z.value - q| := by
    rw [← z.abs_value, ← size]
    exact abs_abs_sub_abs_le_abs_sub _ _
  refine ⟨finite, fun z _ => near.trans_le ((least z).trans (far z)), fun z _ other tie => ?_⟩
  rcases even z ((far z).trans (tie.trans near).le) with same | even
  · -- the tie is with the same size of the other sign, so all of it is at zero
    have sizes : |z.value| = |y.value| := by rw [abs_value, abs_value, same]
    have opposite : z.value = -y.value := (abs_eq_abs.mp sizes).resolve_left other
    rw [opposite] at other tie
    have none : y.value * q = 0 := by
      have le := abs_sub_le_abs_sub_iff.mp tie.le
      have ge := abs_sub_le_abs_sub_iff.mp tie.ge
      linarith
    have ne : y.value ≠ 0 := fun h => other (by rw [h, neg_zero])
    rw [zero (by rw [← size, (mul_eq_zero.mp none).resolve_left ne, abs_zero])]
  · exact even

section

variable (hf : f.Standard) (negative : Bool) (n : Nat) {d : Nat} (hd : 0 < d)

include hf hd

theorem isNearest_round (finite : f.nearest n d < f.infinity) :
    (round negative n d : Binary f).IsNearest
      (if negative then -(n / d / 2 ^ f.depth) else n / d / 2 ^ f.depth) := by
  have spec := Format.nearest_spec hf.fraction n hd finite
  have positive : (0 : ℚ) < 2 ^ f.depth := by positivity
  have distance (z : Binary f) : |z.size - n / d / 2 ^ f.depth| =
      |(f.units z.magnitude : ℚ) - n / d| / 2 ^ f.depth := by
    rw [size_eq hf, ← sub_div, abs_div, abs_of_pos positive]
  refine isNearest_of_sizes (y := round negative n d) (by positivity) (isFinite_iff.mpr finite)
    (fun z => ?_) (fun z close => ?_) (fun zero => ?_)
  · rw [distance, distance, div_le_div_iff_of_pos_right positive]
    exact (spec z.magnitude).1
  · rw [distance, distance, div_le_div_iff_of_pos_right positive] at close
    refine ((spec z.magnitude).2 close).imp_left fun same => ?_
    rw [size_eq hf, same, size_eq hf]
    rfl
  · refine Format.nearest_units hf.fraction (Nat.zero_le _) hd ?_
    rw [(div_eq_zero_iff.mp zero).resolve_right positive.ne', f.units_zero, Nat.cast_zero]

end

theorem negative_convert (x : Binary f) (g : Format) : (x.convert g).negative = x.negative := by
  unfold convert
  split
  · rfl
  · split <;> rfl

theorem convert_of_isFinite {x : Binary f} (h : x.isFinite = true) (g : Format) :
    x.convert g = round x.negative (f.units x.magnitude * g.one) f.one := by
  have number : ¬ x.isNaN = true := by simp [isNaN_of_isFinite h]
  rw [convert, if_neg number, if_pos h]

theorem isInfinite_convert {x : Binary f} (h : x.isInfinite = true) (g : Format) :
    (x.convert g).isInfinite = true := by
  have number : ¬ x.isNaN = true := by simp [isNaN_of_isInfinite h]
  have infinite : ¬ x.isFinite = true := by simp [isFinite, isInfinite_iff.mp h]
  rw [convert, if_neg number, if_neg infinite, isInfinite_iff]

theorem quotient_convert (hf : f.Standard) (x : Binary f) (g : Format) :
    ((f.units x.magnitude * g.one : Nat) / f.one : ℚ) = x.size * 2 ^ g.depth := by
  rw [size_eq hf, Format.one, Format.one, Nat.pow_eq, Nat.pow_eq]
  push_cast
  ring

theorem isNaN_convert (hg : g.Standard) (x : Binary f) : (x.convert g).isNaN = x.isNaN := by
  have beyond : g.infinity < g.span - 1 := by
    have one : 2 ≤ 2 ^ g.fraction := Nat.pow_le_pow_right (n := 2) (by decide) hg.fraction
    have powers : 0 < 2 ^ g.exponent := Nat.two_pow_pos _
    unfold Format.infinity Format.span
    rw [Nat.pow_eq, Nat.pow_eq, Nat.sub_mul]
    have := Nat.mul_le_mul_right (2 ^ g.fraction) powers
    omega
  cases h : x.isNaN with
  | true =>
    rw [convert, if_pos h, isNaN, decide_eq_true_eq]
    exact beyond
  | false =>
    rw [isNaN_eq_false_iff]
    rcases isFinite_or_isInfinite h with finite | infinite
    · rw [convert_of_isFinite finite]
      exact Nat.min_le_left _ _
    · exact (isInfinite_iff.mp (isInfinite_convert infinite g)).le

section

variable (hf : f.Standard) (hg : g.Standard) {x y : Binary f}

include hf hg

theorem isNearest_convert (hx : x.isFinite = true) (finite : (x.convert g).isFinite = true) :
    (x.convert g).IsNearest x.value := by
  rw [convert_of_isFinite hx] at finite ⊢
  have nearest := isNearest_round hg x.negative (f.units x.magnitude * g.one) f.one_pos
    (isFinite_iff.mp finite)
  rw [quotient_convert hf, mul_div_cancel_right₀ _ (by positivity)] at nearest
  exact nearest

theorem isInfinite_convert_iff (hx : x.isFinite = true) :
    (x.convert g).isInfinite = true ↔
      (g.units (g.infinity - 1) + g.units g.infinity : ℚ) ≤ 2 * (x.size * 2 ^ g.depth) := by
  rw [convert_of_isFinite hx, ← quotient_convert hf,
    ← Format.infinity_le_nearest_iff hg _ f.one_pos, isInfinite_iff]
  exact ⟨fun h => h.ge, fun h => Nat.le_antisymm (Nat.min_le_left _ _) h⟩

theorem size_convert_le {z : Binary g} (hx : x.isFinite = true) (hz : z.isNaN = false)
    (le : x.size ≤ z.size) : (x.convert g).size ≤ z.size := by
  have own : g.nearest (g.units z.magnitude) 1 = z.magnitude :=
    Format.nearest_units hg.fraction (isNaN_eq_false_iff.mp hz) Nat.one_pos (by simp)
  rw [convert_of_isFinite hx, size_le_size_iff hg, ← own]
  refine Format.nearest_le_nearest hg.fraction f.one_pos Nat.one_pos ?_
  have whole : z.size * 2 ^ g.depth = g.units z.magnitude := by
    rw [size_eq hg, div_mul_cancel₀ _ (by positivity)]
  rw [quotient_convert hf, Nat.cast_one, div_one, ← whole]
  exact mul_le_mul_of_nonneg_right le (by positivity)

theorem isFinite_convert {z : Binary g} (hx : x.isFinite = true) (hz : z.isFinite = true)
    (le : x.size ≤ z.size) : (x.convert g).isFinite = true := by
  have small := size_convert_le hf hg hx (isNaN_of_isFinite hz) le
  exact isFinite_iff.mpr (((size_le_size_iff hg).mp small).trans_lt (isFinite_iff.mp hz))

theorem size_convert_le_size_convert (hx : x.isNaN = false) (hy : y.isNaN = false)
    (le : x.size ≤ y.size) : (x.convert g).size ≤ (y.convert g).size := by
  rcases isFinite_or_isInfinite hy with fy | iy
  · have fx : x.isFinite = true :=
      isFinite_iff.mpr (Nat.lt_of_le_of_lt ((size_le_size_iff hf).mp le) (isFinite_iff.mp fy))
    rw [convert_of_isFinite fx, convert_of_isFinite fy, size_le_size_iff hg]
    refine Format.nearest_le_nearest hg.fraction f.one_pos f.one_pos ?_
    rw [quotient_convert hf, quotient_convert hf]
    exact mul_le_mul_of_nonneg_right le (by positivity)
  · exact size_le_of_isInfinite hg ((isNaN_convert hg x).trans hx) (isInfinite_convert iy g)

theorem size_convert_eq_zero (h : x.size = 0) : (x.convert g).size = 0 := by
  have finite : x.isFinite = true := by
    rw [isFinite_iff, (size_eq_zero_iff hf).mp h]
    exact hf.infinity_pos
  have le : (x.convert g).size ≤ (zero : Binary g).size :=
    size_convert_le hf hg finite (isNaN_eq_false_iff.mpr (Nat.zero_le _)) (by rw [h, size_zero hg])
  exact le_antisymm (le.trans (size_zero hg).le) (size_nonneg _)

theorem AtMost.convert (h : x.AtMost y) :
    (x.convert g).AtMost (y.convert g) := by
  have le := h.value_le hf
  obtain ⟨hx, hy, -⟩ := h
  refine atMost_of_value_le hg ((isNaN_convert hg x).trans hx) ((isNaN_convert hg y).trans hy) ?_
  have sx := x.negative_convert g
  have sy := y.negative_convert g
  cases hsx : x.negative with
  | true =>
    rw [value_of_negative hsx] at le
    rw [value_of_negative (sx.trans hsx)]
    cases hsy : y.negative with
    | true =>
      rw [value_of_negative hsy] at le
      rw [value_of_negative (sy.trans hsy)]
      exact neg_le_neg (size_convert_le_size_convert hf hg hy hx (neg_le_neg_iff.mp le))
    | false =>
      rw [value_of_positive (sy.trans hsy)]
      exact (neg_nonpos.mpr (size_nonneg _)).trans (size_nonneg _)
  | false =>
    rw [value_of_positive hsx] at le
    rw [value_of_positive (sx.trans hsx)]
    cases hsy : y.negative with
    | true =>
      -- both numbers are zero
      rw [value_of_negative hsy] at le
      rw [value_of_negative (sy.trans hsy)]
      have := x.size_nonneg
      have := y.size_nonneg
      rw [size_convert_eq_zero hf hg (x := x) (by linarith),
        size_convert_eq_zero hf hg (x := y) (by linarith), neg_zero]
    | false =>
      rw [value_of_positive hsy] at le
      rw [value_of_positive (sy.trans hsy)]
      exact size_convert_le_size_convert hf hg hx hy le

end

section

variable {low high : ℤ} {x y : Binary f}

theorem truncate_of_isFinite (hf : f.Standard) (h : x.isFinite = true) :
    x.truncate low high = max low (min high (towardZero x.value)) := by
  have number : ¬ x.isNaN = true := by simp [isNaN_of_isFinite h]
  have whole : ⌊x.size⌋ = ((f.units x.magnitude / f.one : Nat) : ℤ) := by
    have power : (2 ^ f.depth : ℚ) = (f.one : Nat) := by
      rw [Format.one, Nat.pow_eq]
      push_cast
      rfl
    rw [size_eq hf, power, Rat.floor_natCast_div_natCast, Int.natCast_ediv]
  rw [truncate, if_neg number, if_pos h, ← whole, value]
  split
  · rw [towardZero_neg x.size_nonneg]
  · rw [towardZero, if_pos x.size_nonneg]

theorem truncate_of_isInfinite (h : x.isInfinite = true) :
    x.truncate low high = if x.negative then low else high := by
  have number : ¬ x.isNaN = true := by simp [isNaN_of_isInfinite h]
  have infinite : ¬ x.isFinite = true := by simp [isFinite, isInfinite_iff.mp h]
  rw [truncate, if_neg number, if_neg infinite]

theorem truncate_mem (hl : low ≤ 0) (hh : 0 ≤ high) :
    low ≤ x.truncate low high ∧ x.truncate low high ≤ high := by
  unfold truncate
  split
  · exact ⟨hl, hh⟩
  · have le := hl.trans hh
    split
    · exact ⟨le_max_left _ _, max_le le (min_le_left _ _)⟩
    · split
      · exact ⟨le_rfl, le⟩
      · exact ⟨le, le_rfl⟩

theorem AtMost.truncate_le (hf : f.Standard) (hl : low ≤ 0) (hh : 0 ≤ high) (h : x.AtMost y) :
    x.truncate low high ≤ y.truncate low high := by
  obtain ⟨-, -, ⟨infinite, sign⟩ | ⟨infinite, sign⟩ | ⟨fx, fy, le⟩⟩ := h
  · rw [truncate_of_isInfinite infinite, if_pos sign]
    exact (truncate_mem hl hh).1
  · rw [truncate_of_isInfinite infinite, if_neg (by simp [sign])]
    exact (truncate_mem hl hh).2
  · rw [truncate_of_isFinite hf fx, truncate_of_isFinite hf fy]
    exact max_le_max le_rfl (min_le_min le_rfl (towardZero_mono le))

end

end Binary
end GatewayEnrichment
