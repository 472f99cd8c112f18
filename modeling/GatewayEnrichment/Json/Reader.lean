import GatewayEnrichment.Json.Quoted
import GatewayEnrichment.Json.Numeral

/-! The pieces that every way of reading a JSON text shares: white space, fixed words, and the walk
over the items of an array or the members of an object. A walk asks before each item whether one
follows and stops in front of the closing bracket. -/

namespace GatewayEnrichment.Json

abbrev Reader (α : Type) := Octets → Except Flaw (α × Octets)

def isSpace (c : UInt8) : Bool := c == 0x20 || c == 0x09 || c == 0x0A || c == 0x0D

def skipSpace (input : Octets) : Octets := input.dropWhile isSpace

def readWord : Octets → Reader Unit
  | [], input => .ok ((), input)
  | _ :: _, [] => .error .truncated
  | w :: word, c :: rest => if c = w then readWord word rest else .error .malformed

def readMark (c : UInt8) (input : Octets) : Except Flaw (Unit × Octets) :=
  match skipSpace input with
  | [] => .error .truncated
  | d :: rest => if d = c then .ok ((), rest) else .error .malformed

def nextItem (close : UInt8) (first : Bool) (input : Octets) : Except Flaw (Bool × Octets) :=
  match skipSpace input with
  | [] => .error .truncated
  | c :: rest =>
    if c = close then .ok (false, c :: rest)
    else if first then .ok (true, c :: rest)
    else if c = Mark.comma then
      match skipSpace rest with
      | [] => .error .truncated
      | d :: rest => if d = close then .error .malformed else .ok (true, d :: rest)
    else .error .malformed

/-- Walks over what stands before the octet `close`, with at most as many rounds as there are
octets, since each round takes at least one. -/
def walk {σ : Type} (close : UInt8) (round : σ → Reader σ) : Nat → Bool → σ → Reader σ
  | 0, _, _, _ => .error .truncated
  | n + 1, first, s, input => do
    let (more, input) ← nextItem close first input
    if more then
      let (s, input) ← round s input
      walk close round n false s input
    else return (s, input)

def walkItems {σ : Type} (round : σ → Reader σ) (s : σ) : Reader σ := fun input =>
  walk Mark.closeList round (input.length + 1) true s input

def walkMembers {σ : Type} (round : String → σ → Reader σ) (s : σ) : Reader σ := fun input =>
  walk Mark.closeObject
    (fun s input =>
      match skipSpace input with
      | Mark.quote :: rest => do
        let (key, rest) ← readString rest
        round key s rest
      | _ => .error .malformed)
    (input.length + 1) true s input

def readColon : Reader Unit := readMark Mark.colon
def closeItems : Reader Unit := readMark Mark.closeList
def closeMembers : Reader Unit := readMark Mark.closeObject

def atEnd {α : Type} (read : Reader α) (input : Octets) : Except Flaw α := do
  let (a, rest) ← read input
  if (skipSpace rest).isEmpty then return a else throw .malformed

end GatewayEnrichment.Json
