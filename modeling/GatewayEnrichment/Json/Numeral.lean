import GatewayEnrichment.Binary.Scaling
import GatewayEnrichment.Text.Octets
import GatewayEnrichment.Json.Flaw
import GatewayEnrichment.Json.Mark

/-! Numbers of a JSON text. A literal is first cut into its parts. A whole number that fits in
sixty-four bits is kept exactly. Every other one is a double next to it, for which only the digits
are used that fit in sixty-four bits, and one past the last double is refused. -/

namespace GatewayEnrichment.Json

structure Literal where
  negative : Bool
  whole : Octets
  fraction : Octets
  exponent : Option (Bool × Octets)
  deriving DecidableEq, Repr

inductive Numeral where
  | integer (z : Int)
  | floating (x : Binary .double)
  deriving DecidableEq, Repr

def isDigit (c : UInt8) : Bool := 0x30 ≤ c && c ≤ 0x39

def digitsValue (ds : Octets) : Nat := ds.foldl (fun n d => 10 * n + (d.toNat - 0x30)) 0

namespace Literal

def someDigits (input : Octets) : Except Flaw (Octets × Octets) :=
  match input with
  | [] => .error .truncated
  | c :: _ => if isDigit c then .ok (input.span isDigit) else .error .malformed

def wholePart (input : Octets) : Except Flaw (Octets × Octets) :=
  match input with
  | Mark.zero :: c :: rest => if isDigit c then .error .malformed else .ok ([Mark.zero], c :: rest)
  | input => someDigits input

def fractionPart (input : Octets) : Except Flaw (Octets × Octets) :=
  match input with
  | Mark.point :: rest => someDigits rest
  | input => .ok ([], input)

def exponentPart (input : Octets) : Except Flaw (Option (Bool × Octets) × Octets) :=
  match input with
  | c :: rest =>
    if c = Mark.e ∨ c = Mark.capitalE then
      let (negative, rest) :=
        match rest with
        | Mark.plus :: rest => (false, rest)
        | Mark.minus :: rest => (true, rest)
        | rest => (false, rest)
      (someDigits rest).map fun (ds, rest) => (some (negative, ds), rest)
    else .ok (none, input)
  | [] => .ok (none, [])

def read (input : Octets) : Except Flaw (Literal × Octets) := do
  let (negative, input) :=
    match input with
    | Mark.minus :: rest => (true, rest)
    | input => (false, input)
  let (whole, input) ← wholePart input
  let (fraction, input) ← fractionPart input
  let (exponent, input) ← exponentPart input
  return (⟨negative, whole, fraction, exponent⟩, input)

def scale (l : Literal) : Int :=
  match l.exponent with
  | none => 0
  | some (negative, ds) => if negative then -digitsValue ds else digitsValue ds

/-- Goes on from a number with the digits that leave it within sixty-four bits; the others are
left. -/
def takeDigits (n : Nat) : Octets → Nat × Octets
  | [] => (n, [])
  | d :: ds =>
    let next := 10 * n + (d.toNat - 0x30)
    if next < UInt64.size then takeDigits next ds else (n, d :: ds)

/-- A digit left before the point is a place, and one left behind it is nothing. -/
def decimal (l : Literal) : Decimal :=
  let (n, places) := takeDigits 0 l.whole
  let (n, left) := takeDigits n l.fraction
  ⟨n, l.scale + places.length - (l.fraction.length - left.length : Nat)⟩

/-- The whole number that the literal is, if it is written as one. A negative zero is none. -/
def integer? (l : Literal) : Option Int :=
  match l.fraction, l.exponent with
  | [], none =>
    let n := digitsValue l.whole
    if l.negative then if 0 < n ∧ Int64.minValue.toInt ≤ -n then some (-n) else none
    else if n < UInt64.size then some n else none
  | _, _ => none

def numeral (l : Literal) : Except Flaw Numeral :=
  match l.integer? with
  | some z => .ok (.integer z)
  | none =>
    match Binary.ofDecimal? l.decimal with
    | some x => .ok (.floating { x with negative := l.negative })
    | none => .error .malformed

end Literal

def Numeral.read (input : Octets) : Except Flaw (Numeral × Octets) := do
  let (l, rest) ← Literal.read input
  return (← l.numeral, rest)

def Numeral.found : Numeral → Found
  | .integer z => .integer z
  | .floating x => .floating x

end GatewayEnrichment.Json
