import GatewayEnrichment.Text.Octets
import GatewayEnrichment.Json.Flaw
import GatewayEnrichment.Json.Mark

/-! Strings of a JSON text. The scan goes octet by octet, and its phase says what the octets before
have promised. A string is read with care when its text is wanted, and then an escaped surrogate
must be half of a pair; a string that is only passed over is scanned lightly. -/

namespace GatewayEnrichment.Json

inductive Care where
  | full
  | light
  deriving DecidableEq, Repr

/-- Where the scan stands: among plain octets, after a backslash, inside the four digits of a code
unit (how many are to come, what the ones so far mean, and the leading half before them), or
between the halves of a surrogate pair. -/
inductive Phase where
  | plain
  | escape
  | unit (left : Nat) (value : Option Nat) (leading : Option Nat)
  | afterLeading (leading : Nat)
  | afterBackslash (leading : Nat)
  deriving DecidableEq, Repr

def shortEscape (c : UInt8) : Option UInt8 :=
  match c with
  | Mark.quote => some Mark.quote
  | Mark.backslash => some Mark.backslash
  | Mark.slash => some Mark.slash
  | Mark.b => some 0x08
  | Mark.f => some 0x0C
  | Mark.n => some 0x0A
  | Mark.r => some 0x0D
  | Mark.t => some 0x09
  | _ => none

def hexDigit (c : UInt8) : Option Nat :=
  if 0x30 ≤ c ∧ c ≤ 0x39 then some (c.toNat - 0x30)
  else if 0x61 ≤ c ∧ c ≤ 0x66 then some (c.toNat - 0x57)
  else if 0x41 ≤ c ∧ c ≤ 0x46 then some (c.toNat - 0x37)
  else none

def isLeading (n : Nat) : Bool := 0xD800 ≤ n && n ≤ 0xDBFF

def isTrailing (n : Nat) : Bool := 0xDC00 ≤ n && n ≤ 0xDFFF

def codePoint (n : Nat) : Octets := String.utf8EncodeChar (Char.ofNat n)

def closeUnit (care : Care) (value leading : Option Nat) : Except Flaw (Octets × Phase) :=
  match care, value, leading with
  | _, none, _ => .error .malformed
  | .light, some _, _ => .ok ([], .plain)
  | .full, some n, none =>
    if isTrailing n then .error .malformed
    else if isLeading n then .ok ([], .afterLeading n)
    else .ok (codePoint n, .plain)
  | .full, some n, some l =>
    if isTrailing n then
      .ok (codePoint (0x10000 + (l - 0xD800) * 0x400 + (n - 0xDC00)), .plain)
    else .error .malformed

def scanOctet (care : Care) (phase : Phase) (c : UInt8) : Except Flaw (Option (Octets × Phase)) :=
  match phase with
  | .plain =>
    if c = Mark.quote then .ok none
    else if c = Mark.backslash then .ok (some ([], .escape))
    else if c < 0x20 then .error .malformed
    else .ok (some ([c], .plain))
  | .escape =>
    if c = Mark.u then .ok (some ([], .unit 3 (some 0) none))
    else match shortEscape c with
      | some d => .ok (some ([d], .plain))
      | none => .error .malformed
  | .unit left value leading =>
    let value := do return 16 * (← value) + (← hexDigit c)
    match left with
    | 0 => (closeUnit care value leading).map some
    | left + 1 => .ok (some ([], .unit left value leading))
  | .afterLeading l =>
    if c = Mark.backslash then .ok (some ([], .afterBackslash l)) else .error .malformed
  | .afterBackslash l =>
    if c = Mark.u then .ok (some ([], .unit 3 (some 0) (some l))) else .error .malformed

def scanString (care : Care) : Phase → Octets → Octets → Except Flaw (Octets × Octets)
  | _, _, [] => .error .truncated
  | phase, seen, c :: rest =>
    match scanOctet care phase c with
    | .error flaw => .error flaw
    | .ok none => .ok (seen.reverse, rest)
    | .ok (some (add, phase)) => scanString care phase (add.reverse ++ seen) rest

def readString (input : Octets) : Except Flaw (String × Octets) := do
  let (o, rest) ← scanString .full .plain [] input
  match o.text? with
  | some s => return (s, rest)
  | none => throw .malformed

def skimString (input : Octets) : Except Flaw (Unit × Octets) := do
  let (_, rest) ← scanString .light .plain [] input
  return ((), rest)

def writeOctet (c : UInt8) : Octets :=
  if c = Mark.quote then [Mark.backslash, Mark.quote]
  else if c = Mark.backslash then [Mark.backslash, Mark.backslash]
  else if c = 0x08 then [Mark.backslash, Mark.b]
  else if c = 0x09 then [Mark.backslash, Mark.t]
  else if c = 0x0A then [Mark.backslash, Mark.n]
  else if c = 0x0C then [Mark.backslash, Mark.f]
  else if c = 0x0D then [Mark.backslash, Mark.r]
  else if c < 0x20 then
    octets "\\u00" ++ [0x30 + c / 16, if c % 16 < 10 then 0x30 + c % 16 else 0x57 + c % 16]
  else [c]

def quoteOctets (o : Octets) : Octets := Mark.quote :: o.flatMap writeOctet ++ [Mark.quote]

def writeString (s : String) : Octets := quoteOctets (octets s)

end GatewayEnrichment.Json
