import GatewayEnrichment.Binary.Decimal

/-! The text of a binary number: the shortest digits that read back to it, laid out either with a
point among them or with an exponent. -/

namespace GatewayEnrichment

structure Layout where
  first : Int
  last : Int
  deriving DecidableEq, Repr

namespace Layout

/-- Doubles are positional from 0.00001 up to but not including 10^16, and singles from 0.000001
up to but not including 10^13. -/
def ofFormat (f : Format) : Layout :=
  if f = .single then ⟨-6, 13⟩ else ⟨-5, 16⟩

def positional (digits : List Char) (lead : Int) : List Char :=
  if lead < 0 then
    ['0', '.'] ++ List.replicate (-lead - 1).toNat '0' ++ digits
  else
    let whole := lead.toNat + 1
    if digits.length ≤ whole then
      digits ++ List.replicate (whole - digits.length) '0' ++ ['.', '0']
    else digits.take whole ++ '.' :: digits.drop whole

def scientific (digits : List Char) (lead : Int) : List Char :=
  let point := if digits.length ≤ 1 then [] else ['.']
  digits.take 1 ++ point ++ digits.drop 1 ++
    ['e', if lead < 0 then '-' else '+'] ++ Nat.toDigits 10 lead.natAbs

def apply (l : Layout) (d : Decimal) : List Char :=
  let digits := Nat.toDigits 10 d.digits
  let lead := d.exponent + digits.length - 1
  if l.first ≤ lead ∧ lead < l.last then positional digits lead else scientific digits lead

end Layout

namespace Binary

variable {f : Format}

def magnitudeText (x : Binary f) : List Char :=
  if x.magnitude = 0 then ['0', '.', '0']
  else
    let d := f.shortest x.magnitude
    (Layout.ofFormat f).apply (d.stripped (digitCount d.digits))

def text? (x : Binary f) : Option String :=
  if x.isFinite then
    some (String.ofList (if x.negative then '-' :: x.magnitudeText else x.magnitudeText))
  else none

example : (ofDecimal .double false ⟨1, -5⟩).text? = some "0.00001" := by decide +kernel
example : (ofDecimal .double true ⟨5, -324⟩).text? = some "-5e-324" := by decide +kernel
example : (ofDecimal .double false ⟨1, 16⟩).text? = some "1e+16" := by decide +kernel
example : (ofDecimal .single false ⟨5237, -2⟩).text? = some "52.37" := by decide +kernel
example : (ofDecimal .single false ⟨209715225, -2⟩).text? = some "2097152.2" := by decide +kernel

end Binary
end GatewayEnrichment
