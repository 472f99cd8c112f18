import GatewayEnrichment.Json.Numeral
import GatewayEnrichment.Proofs.Binary.Range

/-! Literals that are read as a double. Leaving digits off makes no number larger, and up to the
middle in front of the last double no rounding on the way leads past the doubles. -/

namespace GatewayEnrichment

open Json

namespace Json

theorem digitsValue_append (as bs : Octets) :
    digitsValue (as ++ bs) = digitsValue as * 10 ^ bs.length + digitsValue bs := by
  have shifted : ∀ n, bs.foldl (fun n d => 10 * n + (d.toNat - 0x30)) n =
      n * 10 ^ bs.length + digitsValue bs := by
    induction bs with
    | nil => simp [digitsValue]
    | cons d bs ih =>
      intro n
      rw [digitsValue, List.foldl_cons, List.foldl_cons, ih, ih, List.length_cons, pow_succ]
      ring
  rw [digitsValue, List.foldl_append]
  exact shifted _

theorem digitsValue_cons (d : UInt8) (ds : Octets) :
    digitsValue (d :: ds) = (d.toNat - 0x30) * 10 ^ ds.length + digitsValue ds := by
  have one : digitsValue [d] = d.toNat - 0x30 := by simp [digitsValue]
  rw [← List.singleton_append, digitsValue_append, one]

namespace Literal

def exact (l : Literal) : Decimal :=
  ⟨digitsValue (l.whole ++ l.fraction), l.scale - l.fraction.length⟩

/-- The digits that were taken stand in front of those that are left, and the first of these would
have led too far. -/
theorem takeDigits_spec {n : Nat} (hn : n < UInt64.size) (ds : Octets) :
    ∃ taken, ds = taken ++ (takeDigits n ds).2 ∧ (takeDigits n ds).1 < UInt64.size ∧
      (takeDigits n ds).1 = n * 10 ^ taken.length + digitsValue taken ∧
      ∀ d ∈ (takeDigits n ds).2.head?, UInt64.size ≤ 10 * (takeDigits n ds).1 + (d.toNat - 0x30) := by
  induction ds generalizing n with
  | nil => exact ⟨[], rfl, hn, by simp [digitsValue, takeDigits], by simp [takeDigits]⟩
  | cons d ds ih =>
    rw [takeDigits]
    split
    · next fits =>
      obtain ⟨taken, rest, small, value, left⟩ := ih fits
      refine ⟨d :: taken, congrArg (d :: ·) rest, small, ?_, left⟩
      rw [value, digitsValue_cons, List.length_cons, pow_succ]
      ring
    · next large =>
      refine ⟨[], rfl, hn, by simp [digitsValue], ?_⟩
      rintro _ ⟨⟩
      exact Nat.not_lt.mp large

/-- A digit that would have led too far stands for more than any that are used in its place. -/
theorem used_behind_le {n n' d : Nat} {taken : Octets}
    (fraction : n' = n * 10 ^ taken.length + digitsValue taken) (room : n' ≤ 10 * n + d) :
    n' * 10 ≤ (10 * n + d) * 10 ^ taken.length := by
  cases taken with
  | nil =>
    have same : n' = n := by simpa [digitsValue] using fraction
    rw [same, List.length_nil, Nat.pow_zero]
    omega
  | cons d' ds' =>
    exact Nat.mul_le_mul room (Nat.pow_le_pow_right (n := 10) (by decide) (Nat.succ_pos ds'.length))

theorem used_le {n n' : Nat} {taken places taken' : Octets} (left : Octets)
    (whole : n = digitsValue taken)
    (fraction : n' = n * 10 ^ taken'.length + digitsValue taken') (small : n' < UInt64.size)
    (excess : ∀ d ∈ places.head?, UInt64.size ≤ 10 * n + (d.toNat - 0x30)) :
    n' * 10 ^ (places.length + left.length) ≤
      digitsValue ((taken ++ places) ++ (taken' ++ left)) := by
  rw [digitsValue_append]
  cases places with
  | nil =>
    rw [List.append_nil, ← whole, digitsValue_append, fraction, List.length_nil, Nat.zero_add,
      List.length_append, Nat.pow_add]
    calc (n * 10 ^ taken'.length + digitsValue taken') * 10 ^ left.length
        ≤ (n * 10 ^ taken'.length + digitsValue taken') * 10 ^ left.length + digitsValue left :=
          Nat.le_add_right _ _
      _ = n * (10 ^ taken'.length * 10 ^ left.length) +
            (digitsValue taken' * 10 ^ left.length + digitsValue left) := by ring
  | cons d ds =>
    have ahead : (10 * n + (d.toNat - 0x30)) * 10 ^ ds.length ≤ digitsValue (taken ++ d :: ds) := by
      rw [digitsValue_append, digitsValue_cons, ← whole, List.length_cons, Nat.pow_succ]
      calc (10 * n + (d.toNat - 0x30)) * 10 ^ ds.length
          ≤ (10 * n + (d.toNat - 0x30)) * 10 ^ ds.length + digitsValue ds := Nat.le_add_right _ _
        _ = n * (10 ^ ds.length * 10) +
              ((d.toNat - 0x30) * 10 ^ ds.length + digitsValue ds) := by ring
    have shorter : n' * 10 ≤ (10 * n + (d.toNat - 0x30)) * 10 ^ taken'.length :=
      used_behind_le fraction (small.le.trans (excess d rfl))
    calc n' * 10 ^ ((d :: ds).length + left.length)
        = n' * 10 * (10 ^ ds.length * 10 ^ left.length) := by
          rw [List.length_cons, Nat.pow_add, Nat.pow_succ]
          ring
      _ ≤ (10 * n + (d.toNat - 0x30)) * 10 ^ taken'.length *
            (10 ^ ds.length * 10 ^ left.length) := Nat.mul_le_mul_right _ shorter
      _ = (10 * n + (d.toNat - 0x30)) * 10 ^ ds.length * 10 ^ (taken' ++ left).length := by
          rw [List.length_append, Nat.pow_add]
          ring
      _ ≤ digitsValue (taken ++ d :: ds) * 10 ^ (taken' ++ left).length :=
          Nat.mul_le_mul_right _ ahead
      _ ≤ _ := Nat.le_add_right _ _

theorem decimal_spec (l : Literal) :
    l.decimal.digits < UInt64.size ∧ l.decimal.value ≤ l.exact.value := by
  obtain ⟨taken, whole, small, value, excess⟩ := takeDigits_spec (by decide : 0 < UInt64.size) l.whole
  obtain ⟨taken', fraction, small', value', -⟩ := takeDigits_spec small l.fraction
  rw [Nat.zero_mul, Nat.zero_add] at value
  let places := (takeDigits 0 l.whole).2
  let left := (takeDigits (takeDigits 0 l.whole).1 l.fraction).2
  have used : l.decimal.digits * 10 ^ (places.length + left.length) ≤ l.exact.digits := by
    have bound := used_le left value value' small' excess
    rw [← whole, ← fraction] at bound
    exact bound
  have lengths : l.fraction.length = taken'.length + left.length := by
    rw [← List.length_append]
    exact congrArg List.length fraction
  have exponent : l.decimal.exponent = l.exact.exponent + (places.length + left.length : Nat) := by
    change l.scale + places.length - (l.fraction.length - left.length : Nat) =
      l.scale - l.fraction.length + _
    omega
  refine ⟨small', ?_⟩
  rw [Decimal.value, Decimal.value, exponent, add_comm, zpow_add₀ (by norm_num), zpow_natCast,
    ← mul_assoc]
  exact mul_le_mul_of_nonneg_right (by exact_mod_cast used) (zpow_nonneg (by norm_num) _)

end Literal

end Json

namespace Binary

open Format (standard_double)

def lastMiddle : Nat := 2 ^ 1024 - 3 * 2 ^ 970

theorem units_lastMiddle : Format.double.units (Format.double.infinity - 2) +
    Format.double.units (Format.double.infinity - 1) = 2 * (lastMiddle * Format.double.one) := by
  decide +kernel

theorem reach_single_lt : Format.single.reach < lastMiddle := by
  rw [Format.reach, div_lt_iff₀ (mul_pos two_pos Format.one_cast_pos)]
  exact_mod_cast (by decide +kernel : Format.single.units (Format.single.infinity - 1) +
    Format.single.units Format.single.infinity < lastMiddle * (2 * Format.single.one))

/-- Only the last double, and what is not finite, is next to decimals behind the middle. -/
theorem value_le_lastMiddle {d : Decimal} {negative : Bool}
    (h : (ofDecimal .double negative d).magnitude < Format.double.infinity - 1) :
    d.value ≤ lastMiddle := by
  have before : ¬ Format.double.infinity - 2 < (ofDecimal .double negative d).magnitude := by omega
  rw [lt_magnitude_ofDecimal_iff standard_double] at before
  have passed := not_and.mp before (by decide)
  have middle := congrArg (Nat.cast : Nat → ℚ) units_lastMiddle
  rw [Nat.cast_add, Nat.cast_mul, Nat.cast_mul] at middle
  have le := not_lt.mp fun lt => passed (.inl lt)
  rw [show Format.double.infinity - 2 + 1 = Format.double.infinity - 1 from rfl, middle] at le
  have positive : (0 : ℚ) < Format.double.one := Format.one_cast_pos
  refine le_of_mul_le_mul_right (a := (Format.double.one : ℚ)) ?_ positive
  generalize (lastMiddle : ℚ) = m at le ⊢
  generalize (Format.double.one : ℚ) = o at le ⊢
  rw [Nat.cast_ofNat, mul_left_comm] at le
  linarith

theorem magnitude_ofRatio_mono {n n' : Nat} (h : n ≤ n') :
    (ofRatio n 1 : Binary .double).magnitude ≤ (ofRatio n' 1 : Binary .double).magnitude := by
  refine Format.nearest_le_nearest standard_double.fraction Nat.one_pos Nat.one_pos ?_
  rw [Nat.cast_one, div_one, div_one]
  exact_mod_cast Nat.mul_le_mul_right _ h

theorem magnitude_times_mono {x x' y y' : Binary .double} (hx : x.magnitude ≤ x'.magnitude)
    (hy : y.magnitude ≤ y'.magnitude) : (x.times y).magnitude ≤ (x'.times y').magnitude := by
  refine Format.nearest_le_nearest standard_double.fraction Format.double.one_pos
    Format.double.one_pos ?_
  have units := Format.double.strictMono_units.monotone
  have positive : (0 : ℚ) < Format.double.one := by exact_mod_cast Format.double.one_pos
  rw [div_le_div_iff_of_pos_right positive]
  exact_mod_cast Nat.mul_le_mul (units hx) (units hy)

/-- Powers of ten up to the 288th may be taken with any number of sixty-four bits, and a later one
with as many as the middle allows. -/
theorem isFinite_largest : (List.range' 288 21).all (fun n =>
    ((ofRatio (min (UInt64.size - 1) (lastMiddle / 10 ^ n)) 1).times (powerOfTen n)).isFinite) =
      true := by
  decide +kernel

theorem isFinite_times_powerOfTen {digits n : Nat} (small : digits < UInt64.size)
    (power : n ≤ lastPower) (h : digits * 10 ^ n ≤ lastMiddle) :
    ((ofRatio digits 1).times (powerOfTen n)).isFinite = true := by
  obtain ⟨m, hm, le, fits⟩ : ∃ m ∈ List.range' 288 21, n ≤ m ∧ digits ≤ lastMiddle / 10 ^ m := by
    rcases Nat.le_total n 288 with early | late
    · exact ⟨288, by decide, early,
        Nat.le_trans (Nat.le_of_lt small) (by decide +kernel)⟩
    · exact ⟨n, List.mem_range'_1.mpr ⟨late, Nat.lt_succ_of_le power⟩, Nat.le_refl n,
        (Nat.le_div_iff_mul_le (Nat.pow_pos (by decide))).mpr h⟩
  have largest := of_decide_eq_true (List.all_eq_true.mp isFinite_largest m hm)
  refine decide_eq_true (Nat.lt_of_le_of_lt (magnitude_times_mono ?_ ?_) largest)
  · exact magnitude_ofRatio_mono (Nat.le_min.mpr ⟨Nat.le_sub_one_of_lt small, fits⟩)
  · exact magnitude_ofRatio_mono (Nat.pow_le_pow_right (by decide) le)

theorem exists_ofDecimal? {d : Decimal} (small : d.digits < UInt64.size)
    (h : d.value ≤ lastMiddle) : ∃ x, ofDecimal? d = some x := by
  rw [ofDecimal?]
  split
  · next nonneg =>
    rw [Decimal.value_of_nonneg nonneg, Nat.cast_le] at h
    generalize d.exponent.toNat = n at h
    rw [raised?]
    split
    · next power => exact ⟨_, if_pos (isFinite_times_powerOfTen small power h)⟩
    · next beyond =>
      have none : d.digits = 0 := by
        by_contra some
        have tens : 10 ^ (lastPower + 1) ≤ 10 ^ n :=
          Nat.pow_le_pow_right (by decide) (Nat.not_le.mp beyond)
        have least : 10 ^ n ≤ d.digits * 10 ^ n :=
          Nat.le_mul_of_pos_left _ (Nat.pos_of_ne_zero some)
        exact absurd ((tens.trans least).trans h) (by decide +kernel)
      rw [none]
      exact ⟨_, if_pos (by decide +kernel)⟩
  · exact ⟨_, rfl⟩

end Binary
end GatewayEnrichment
