import GatewayEnrichment.Text.Octets

/-! Where a sequence of octets stops being UTF-8. The scan keeps the index at which the current
character began, the number of octets it still owes and the range the next one must lie in, so that
overlong forms, surrogates and code points past the last one are refused at the second octet of the
character. -/

namespace GatewayEnrichment.Utf8

inductive Fault where
  | invalid (length index : Nat)
  | incomplete (index : Nat)
  deriving DecidableEq, Repr

def Fault.message : Fault → String
  | .invalid length index => s!"invalid utf-8 sequence of {length} bytes from index {index}"
  | .incomplete index => s!"incomplete utf-8 byte sequence from index {index}"

structure Expected where
  owed : Nat
  low : UInt8
  high : UInt8
  deriving DecidableEq, Repr

def Expected.after (b : UInt8) : Option Expected :=
  if b < 0x80 then some ⟨0, 0x80, 0xBF⟩
  else if b < 0xC2 then none
  else if b < 0xE0 then some ⟨1, 0x80, 0xBF⟩
  else if b = 0xE0 then some ⟨2, 0xA0, 0xBF⟩
  else if b = 0xED then some ⟨2, 0x80, 0x9F⟩
  else if b < 0xF0 then some ⟨2, 0x80, 0xBF⟩
  else if b = 0xF0 then some ⟨3, 0x90, 0xBF⟩
  else if b < 0xF4 then some ⟨3, 0x80, 0xBF⟩
  else if b = 0xF4 then some ⟨3, 0x80, 0x8F⟩
  else none

def scan (start read : Nat) : Expected → Octets → Option Fault
  | expected, [] => if expected.owed = 0 then none else some (.incomplete start)
  | ⟨0, _, _⟩, b :: rest =>
    match Expected.after b with
    | none => some (.invalid 1 (start + read))
    | some expected => scan (start + read) 1 expected rest
  | ⟨owed + 1, low, high⟩, b :: rest =>
    if low ≤ b && b ≤ high then scan start (read + 1) ⟨owed, 0x80, 0xBF⟩ rest
    else some (.invalid read start)

def firstFault (o : Octets) : Option Fault := scan 0 0 ⟨0, 0x80, 0xBF⟩ o

example : firstFault [0x61, 0xE2, 0x82, 0x0A] = some (.invalid 2 1) := by decide
example : firstFault [0x61, 0xE2, 0x82] = some (.incomplete 1) := by decide
example : firstFault [0xED, 0xA0, 0x80] = some (.invalid 1 0) := by decide
example : firstFault (octets "aé€😀") = none := by decide

end GatewayEnrichment.Utf8
