import GatewayEnrichment.Message
import GatewayEnrichment.Proofs.Binary.Conversion

/-! What becomes of an antenna location in a message: its coordinates are the nearest singles and
its altitude is truncated. -/

namespace GatewayEnrichment

open Format (standard_single standard_double)

namespace Binary

structure NarrowsTo (x : Binary .double) (y : Binary .single) : Prop where
  sign : y.negative = x.negative
  isNaN : y.isNaN = x.isNaN
  infinite : y.isInfinite = true ↔
    x.isInfinite = true ∨ x.isFinite = true ∧ 2 ^ 128 - 2 ^ 103 ≤ |x.value|
  nearest : x.isFinite = true → y.isFinite = true → y.IsNearest x.value
  kept : x.isFinite = true → ∀ z : Binary .single, z.isFinite = true → z.value = x.value →
    y.isFinite = true ∧ y.value = x.value

/-- What a whole number has to be for a double: its value without the fraction, or the nearest end
of the range, and zero for what is not a number. -/
structure TruncatesTo (x : Binary .double) (n : Int32) : Prop where
  notNumber : x.isNaN = true → n = 0
  infinite : x.isInfinite = true → n = if x.negative then Int32.minValue else Int32.maxValue
  finite : x.isFinite = true → n.toInt = max (-2 ^ 31) (min (2 ^ 31 - 1) (towardZero x.value))

variable {x : Binary .double}

theorem single_middle : Format.single.units (Format.single.infinity - 1) +
    Format.single.units Format.single.infinity = (2 ^ 25 - 1) * 2 ^ 253 := by
  decide +kernel

theorem isInfinite_narrowed_iff (h : x.isFinite = true) :
    (x.convert .single).isInfinite = true ↔ 2 ^ 128 - 2 ^ 103 ≤ |x.value| := by
  rw [isInfinite_convert_iff standard_double standard_single h, x.abs_value, ← Nat.cast_add,
    single_middle]
  have bound : (((2 ^ 25 - 1) * 2 ^ 253 : Nat) : ℚ) =
      2 * ((2 ^ 128 - 2 ^ 103) * 2 ^ Format.single.depth) := by
    rw [show Format.single.depth = 149 from rfl]
    norm_num
  rw [bound, mul_le_mul_iff_right₀ two_pos, mul_le_mul_iff_left₀ (by positivity)]

theorem narrowsTo_convert (x : Binary .double) : x.NarrowsTo (x.convert .single) where
  sign := x.negative_convert .single
  isNaN := isNaN_convert standard_single x
  infinite := by
    constructor
    · intro infinite
      have number : x.isNaN = false := by
        rw [← isNaN_convert standard_single x, isNaN_of_isInfinite infinite]
      exact (isFinite_or_isInfinite number).symm.imp_right fun finite =>
        ⟨finite, (isInfinite_narrowed_iff finite).mp infinite⟩
    · rintro (infinite | ⟨finite, large⟩)
      · exact isInfinite_convert infinite .single
      · exact (isInfinite_narrowed_iff finite).mpr large
  nearest := isNearest_convert standard_double standard_single
  kept := by
    intro finite z hz same
    have sizes : x.size = z.size := by rw [← x.abs_value, ← z.abs_value, same]
    have inside := isFinite_convert standard_double standard_single finite hz sizes.le
    have least := (isNearest_convert standard_double standard_single finite inside).least z hz
    rw [same, sub_self, abs_zero] at least
    exact ⟨inside, sub_eq_zero.mp (abs_nonpos_iff.mp least)⟩

theorem toInt_truncated (x : Binary .double) :
    (Int32.ofInt (x.truncate Int32.minValue.toInt Int32.maxValue.toInt)).toInt =
      x.truncate Int32.minValue.toInt Int32.maxValue.toInt := by
  obtain ⟨low, high⟩ : Int32.minValue.toInt ≤ x.truncate Int32.minValue.toInt Int32.maxValue.toInt ∧
      x.truncate Int32.minValue.toInt Int32.maxValue.toInt ≤ Int32.maxValue.toInt :=
    truncate_mem (by decide) (by decide)
  exact Int32.toInt_ofInt_of_le low (Int.lt_add_one_of_le high)

theorem truncatesTo_truncate (x : Binary .double) : x.TruncatesTo
    (Int32.ofInt (x.truncate Int32.minValue.toInt Int32.maxValue.toInt)) where
  notNumber h := by
    rw [truncate, if_pos h]
    rfl
  infinite h := by
    rw [truncate_of_isInfinite h]
    split
    · exact Int32.ofInt_toInt _
    · exact Int32.ofInt_toInt _
  finite h := by
    rw [toInt_truncated, truncate_of_isFinite standard_double h]
    rfl

theorem size_eq_of_units {f : Format} (hf : f.Standard) {b : Binary f} {n : Nat}
    (h : f.units b.magnitude = n * 2 ^ f.depth) : b.size = n := by
  rw [size_eq hf, h]
  push_cast
  exact mul_div_cancel_right₀ _ (by positivity)

/-- A coordinate between two bounds that are themselves singles stays between them. -/
theorem abs_narrowed_le {b : Binary .single} {n : Nat} (hb : b.isFinite = true)
    (hn : Format.single.units b.magnitude = n * 2 ^ Format.single.depth)
    (finite : x.isFinite = true) (le : |x.value| ≤ n) :
    (x.convert .single).isFinite = true ∧ |(x.convert .single).value| ≤ n := by
  rw [x.abs_value, ← size_eq_of_units standard_single hn] at le
  rw [abs_value, ← size_eq_of_units standard_single hn]
  exact ⟨isFinite_convert standard_double standard_single finite hb le,
    size_convert_le standard_double standard_single finite (isNaN_of_isFinite hb) le⟩

end Binary

namespace AntennaLocation

open Binary

structure NarrowsTo (a : AntennaLocation) (g : Gps) : Prop where
  latitude : a.latitude.NarrowsTo g.latitude
  longitude : a.longitude.NarrowsTo g.longitude
  altitude : a.altitude.TruncatesTo g.altitude

theorem narrowsTo_narrowed (a : AntennaLocation) : a.NarrowsTo a.narrowed where
  latitude := narrowsTo_convert _
  longitude := narrowsTo_convert _
  altitude := truncatesTo_truncate _

/-- Each component of a location is narrowed exactly, in order, and within the bounds of latitudes
and longitudes. -/
theorem narrowed_exactly (a : AntennaLocation) :
    a.latitude.NarrowsTo a.narrowed.latitude ∧ a.longitude.NarrowsTo a.narrowed.longitude ∧
    a.altitude.TruncatesTo a.narrowed.altitude ∧
    (∀ b : AntennaLocation,
      (a.latitude.AtMost b.latitude → a.narrowed.latitude.AtMost b.narrowed.latitude) ∧
      (a.longitude.AtMost b.longitude → a.narrowed.longitude.AtMost b.narrowed.longitude) ∧
      (a.altitude.AtMost b.altitude → a.narrowed.altitude ≤ b.narrowed.altitude)) ∧
    (a.latitude.isFinite = true → |a.latitude.value| ≤ 90 →
      a.narrowed.latitude.isFinite = true ∧ |a.narrowed.latitude.value| ≤ 90) ∧
    (a.longitude.isFinite = true → |a.longitude.value| ≤ 180 →
      a.narrowed.longitude.isFinite = true ∧ |a.narrowed.longitude.value| ≤ 180) := by
  obtain ⟨latitude, longitude, altitude⟩ := a.narrowsTo_narrowed
  refine ⟨latitude, longitude, altitude, fun b => ⟨?_, ?_, ?_⟩, ?_, ?_⟩
  · exact AtMost.convert standard_double standard_single
  · exact AtMost.convert standard_double standard_single
  · intro h
    rw [Int32.le_iff_toInt_le, narrowed, narrowed, toInt_truncated, toInt_truncated]
    exact h.truncate_le standard_double (by decide) (by decide)
  · exact abs_narrowed_le (b := .ofInt 90) (n := 90) (by decide +kernel) (by decide +kernel)
  · exact abs_narrowed_le (b := .ofInt 180) (n := 180) (by decide +kernel) (by decide +kernel)

end AntennaLocation

end GatewayEnrichment
