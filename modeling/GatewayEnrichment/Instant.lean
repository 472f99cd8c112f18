/-! A reading of the clock: whole seconds, counted in sixty-four bits with a sign, and nanoseconds.
An instant past the last second cannot be told. -/

namespace GatewayEnrichment

structure Instant where
  seconds : Int64
  nanoseconds : Fin 1000000000
  deriving DecidableEq, Repr

namespace Instant

def zero : Instant := ⟨0, 0⟩

def later? (i : Instant) (milliseconds : Nat) : Option Instant :=
  let nanoseconds := i.nanoseconds.val + milliseconds % 1000 * 1000000
  let seconds :=
    i.seconds.toInt + Int.ofNat (milliseconds / 1000 + nanoseconds / 1000000000)
  if seconds ≤ Int64.maxValue.toInt then
    some ⟨Int64.ofInt seconds, ⟨nanoseconds % 1000000000, Nat.mod_lt _ (by decide)⟩⟩
  else none

end Instant
end GatewayEnrichment
