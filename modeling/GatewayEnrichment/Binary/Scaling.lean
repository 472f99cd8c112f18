import GatewayEnrichment.Binary.Decimal

/-! Decimals as they are read quickly. The digits are taken for a double, which is then multiplied
or divided by powers of ten that are doubles themselves. Each of these steps is rounded, so what
comes out is next to the decimal, but not always the nearest double. -/

namespace GatewayEnrichment.Binary

def times (x y : Binary .double) : Binary .double :=
  round false (Format.double.units x.magnitude * Format.double.units y.magnitude) Format.double.one

def quotient (x y : Binary .double) : Binary .double :=
  ofRatio (Format.double.units x.magnitude) (Format.double.units y.magnitude)

def powerOfTen (n : Nat) : Binary .double := ofRatio (Nat.pow 10 n) 1

def lastPower : Nat := 308

def raised? (x : Binary .double) (n : Nat) : Option (Binary .double) :=
  if n ≤ lastPower then
    let y := x.times (powerOfTen n)
    if y.isFinite then some y else none
  else if x.magnitude = 0 then some x else none

def lowered (x : Binary .double) (n : Nat) : Nat → Binary .double
  | 0 => x.quotient (powerOfTen n)
  | rounds + 1 =>
    if x.magnitude = 0 then x else lowered (x.quotient (powerOfTen lastPower)) (n - lastPower) rounds

def ofDecimal? (d : Decimal) : Option (Binary .double) :=
  let x := ofRatio d.digits 1
  if 0 ≤ d.exponent then x.raised? d.exponent.toNat
  else
    let n := (-d.exponent).toNat
    some (x.lowered n ((n - 1) / lastPower))

example : ofDecimal? ⟨52370216000000003, -15⟩ = some (ofDecimal .double false ⟨52370216, -6⟩) := by
  decide +kernel

end GatewayEnrichment.Binary
