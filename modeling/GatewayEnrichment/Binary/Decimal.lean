import GatewayEnrichment.Binary.Basic

/-! Decimal numbers and the binary numbers next to them. The shortest decimal of a number is
searched for grid by grid: on the grid of `n` significant digits only the two neighbours of the
value can be the nearest ones that read back, so the first grid with a hit has the fewest digits
and the nearer hit is the closest of them. -/

namespace GatewayEnrichment

structure Decimal where
  digits : Nat
  exponent : Int
  deriving DecidableEq, Repr

def digitCount (n : Nat) : Nat := if n = 0 then 0 else (Nat.toDigits 10 n).length

namespace Binary

variable {f : Format}

/-- The nearest number to a decimal. An exponent so large that the value is past every finite
number, or so small that it is nearer to zero than to any other, is not raised to a power. -/
def ofDecimal (f : Format) (negative : Bool) (d : Decimal) : Binary f :=
  if d.digits = 0 then ⟨negative, 0, zero.magnitude_lt⟩
  else if 0 ≤ d.exponent then
    if Nat.pow 2 f.exponent < d.exponent.toNat then ⟨negative, f.infinity, f.infinity_lt_span⟩
    else round negative (d.digits * Nat.pow 10 d.exponent.toNat * f.one) 1
  else if f.depth + d.digits.log2 + 1 < (-d.exponent).toNat then
    ⟨negative, 0, zero.magnitude_lt⟩
  else round negative (d.digits * f.one) (Nat.pow 10 (-d.exponent).toNat)

end Binary

namespace Format

variable (f : Format)

def decimalExponent (k : Nat) : Int :=
  let whole := f.units k / f.one
  if whole = 0 then 1 - (digitCount ((f.one + f.units k - 1) / f.units k - 1) : Int)
  else digitCount whole

def gridBelow (k : Nat) (e : Int) : Nat × Nat × Nat :=
  let (n, d) :=
    -- the power of ten stands below the fraction line or above it, never as a negative power
    if 0 ≤ e then (f.units k, f.one * Nat.pow 10 e.toNat)
    else (f.units k * Nat.pow 10 (-e).toNat, f.one)
  (n / d, n % d, d)

def readsBack (k : Nat) (d : Decimal) : Bool := (Binary.ofDecimal f false d).magnitude == k

def onGrid (k : Nat) (e : Int) : Option Decimal :=
  let (below, left, step) := f.gridBelow k e
  let lower : Decimal := ⟨below, e⟩
  let upper : Decimal := ⟨below + 1, e⟩
  match f.readsBack k lower, f.readsBack k upper with
  | true, true =>
    if 2 * left < step ∨ (2 * left = step ∧ below % 2 = 0) then some lower else some upper
  | true, false => some lower
  | false, true => some upper
  | false, false => none

def searchGrids (k : Nat) (top : Int) : Nat → Nat → Decimal
  | _, 0 => ⟨0, 0⟩
  | n, count + 1 =>
    match f.onGrid k (top - n) with
    | some d => d
    | none => searchGrids k top (n + 1) count

/-- Seventeen digits tell the numbers of either format apart. -/
def shortest (k : Nat) : Decimal := f.searchGrids k (f.decimalExponent k) 1 17

end Format

def Decimal.stripped (d : Decimal) : Nat → Decimal
  | 0 => d
  | count + 1 =>
    if d.digits ≠ 0 ∧ d.digits % 10 = 0 then
      Decimal.stripped ⟨d.digits / 10, d.exponent + 1⟩ count
    else d

end GatewayEnrichment
