import GatewayEnrichment.Text.Octets

/-! White space in the sense of the Unicode property `White_Space`, and trimming by it. -/

namespace GatewayEnrichment

def isBlank (c : Char) : Bool :=
  let n := c.toNat
  (0x09 ≤ n && n ≤ 0x0D) || n == 0x20 || n == 0x85 || n == 0xA0 || n == 0x1680 ||
    (0x2000 ≤ n && n ≤ 0x200A) || (0x2028 ≤ n && n ≤ 0x2029) || n == 0x202F || n == 0x205F ||
    n == 0x3000

def trimChars (cs : List Char) : List Char :=
  ((cs.dropWhile isBlank).reverse.dropWhile isBlank).reverse

def trimmed (s : String) : String := String.ofList (trimChars s.toList)

end GatewayEnrichment
