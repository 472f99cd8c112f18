/-! Binary floating point numbers in the interchange formats. The magnitudes of a format are
numbered in increasing order from zero, and the number of a magnitude is its bit pattern without
the sign. Each finite magnitude is a whole multiple of the least positive one, so comparisons and
roundings are statements about natural numbers. -/

namespace GatewayEnrichment

structure Format where
  fraction : Nat
  exponent : Nat
  deriving DecidableEq, Repr

namespace Format

def single : Format := ⟨23, 8⟩
def double : Format := ⟨52, 11⟩

def span (f : Format) : Nat := Nat.pow 2 f.exponent * Nat.pow 2 f.fraction

/-- The pattern of infinity. Those below it are finite, those above it are not numbers. -/
def infinity (f : Format) : Nat := (Nat.pow 2 f.exponent - 1) * Nat.pow 2 f.fraction

def depth (f : Format) : Nat := Nat.pow 2 (f.exponent - 1) - 2 + f.fraction

def one (f : Format) : Nat := Nat.pow 2 f.depth

theorem infinity_lt_span (f : Format) : f.infinity < f.span :=
  Nat.mul_lt_mul_of_pos_right (Nat.sub_lt (Nat.two_pow_pos _) Nat.one_pos) (Nat.two_pow_pos _)

def units (f : Format) (k : Nat) : Nat :=
  if k < Nat.pow 2 f.fraction then k
  else (Nat.pow 2 f.fraction + k % Nat.pow 2 f.fraction) * Nat.pow 2 (k / Nat.pow 2 f.fraction - 1)

/-- The pattern nearest to `n / d` least positive values, of two equally near the even one, and
infinity from half a step past the last finite value on. -/
def nearest (f : Format) (n d : Nat) : Nat :=
  let shift := (n / d).log2 - f.fraction
  let step := d * Nat.pow 2 shift
  let below := n / step
  let twice := 2 * (n % step)
  let up := if twice > step ∨ (twice = step ∧ below % 2 = 1) then 1 else 0
  min f.infinity (shift * Nat.pow 2 f.fraction + below + up)

theorem nearest_lt_span (f : Format) (n d : Nat) : f.nearest n d < f.span :=
  Nat.lt_of_le_of_lt (Nat.min_le_left _ _) f.infinity_lt_span

end Format

structure Binary (f : Format) where
  negative : Bool
  magnitude : Nat
  magnitude_lt : magnitude < f.span
  deriving DecidableEq, Repr

namespace Binary

variable {f : Format}

def zero : Binary f := ⟨false, 0, Nat.mul_pos (Nat.two_pow_pos _) (Nat.two_pow_pos _)⟩

instance : Inhabited (Binary f) := ⟨zero⟩

def ofBits (n : Nat) : Binary f :=
  ⟨(n / f.span) % 2 = 1, n % f.span,
    Nat.mod_lt _ (Nat.mul_pos (Nat.two_pow_pos _) (Nat.two_pow_pos _))⟩

def toBits (x : Binary f) : Nat := (if x.negative then f.span else 0) + x.magnitude

def isFinite (x : Binary f) : Bool := x.magnitude < f.infinity

def isNaN (x : Binary f) : Bool := f.infinity < x.magnitude

def round (negative : Bool) (n d : Nat) : Binary f :=
  ⟨negative, f.nearest n d, f.nearest_lt_span n d⟩

def ofInt (z : Int) : Binary f := round (z < 0) (z.natAbs * f.one) 1

def ofRatio (n d : Nat) : Binary f := round false (n * f.one) d

def convert (g : Format) (x : Binary f) : Binary g :=
  if x.isNaN then ⟨x.negative, g.span - 1, Nat.sub_lt
    (Nat.mul_pos (Nat.two_pow_pos _) (Nat.two_pow_pos _)) Nat.one_pos⟩
  else if x.isFinite then round x.negative (f.units x.magnitude * g.one) f.one
  else ⟨x.negative, g.infinity, g.infinity_lt_span⟩

def truncate (low high : Int) (x : Binary f) : Int :=
  if x.isNaN then 0
  else if x.isFinite then
    let whole : Int := (f.units x.magnitude / f.one : Nat)
    max low (min high (if x.negative then -whole else whole))
  else if x.negative then low
  else high

end Binary
end GatewayEnrichment
