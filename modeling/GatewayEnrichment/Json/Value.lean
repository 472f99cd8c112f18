import GatewayEnrichment.Json.Reader

/-! JSON values in full. Their nesting is bounded: a value that stands inside `n` brackets may hold
only as many more as the bound leaves. -/

namespace GatewayEnrichment.Json

inductive Value where
  | null
  | flag (b : Bool)
  | number (n : Numeral)
  | text (s : String)
  | array (items : List Value)
  | object (members : List (String × Value))
  deriving Repr, Inhabited

def Value.found : Value → Found
  | .null => .null
  | .flag b => .flag b
  | .number n => n.found
  | .text s => .text s
  | .array _ => .sequence
  | .object _ => .mapping

def readValueWith {α : Type} (scalar : Value → α) (array object : Reader α) : Reader α :=
  fun input =>
  match skipSpace input with
  | [] => .error .truncated
  | c :: rest =>
    if c = Mark.n then do
      let (_, rest) ← readWord (octets "null") (c :: rest)
      return (scalar .null, rest)
    else if c = Mark.t then do
      let (_, rest) ← readWord (octets "true") (c :: rest)
      return (scalar (.flag true), rest)
    else if c = Mark.f then do
      let (_, rest) ← readWord (octets "false") (c :: rest)
      return (scalar (.flag false), rest)
    else if c = Mark.minus ∨ isDigit c then do
      let (n, rest) ← Numeral.read (c :: rest)
      return (scalar (.number n), rest)
    else if c = Mark.quote then do
      let (s, rest) ← readString rest
      return (scalar (.text s), rest)
    else if c = Mark.openList then array rest
    else if c = Mark.openObject then object rest
    else .error .malformed

def readArrayOf (value : Reader Value) : Reader (List Value) := fun input => do
  let (items, rest) ← walkItems (fun seen input => do
    let (v, rest) ← value input
    return (v :: seen, rest)) [] input
  let (_, rest) ← closeItems rest
  return (items.reverse, rest)

def readObjectOf (value : Reader Value) : Reader (List (String × Value)) := fun input => do
  let (members, rest) ← walkMembers (fun key seen input => do
    let (_, rest) ← readColon input
    let (v, rest) ← value rest
    return ((key, v) :: seen, rest)) [] input
  let (_, rest) ← closeMembers rest
  return (members.reverse, rest)

def readValue : Nat → Reader Value
  | 0 => readValueWith id (fun _ => .error .malformed) (fun _ => .error .malformed)
  | levels + 1 =>
    readValueWith id
      (fun input => (readArrayOf (readValue levels) input).map fun (vs, rest) => (.array vs, rest))
      (fun input =>
        (readObjectOf (readValue levels) input).map fun (ms, rest) => (.object ms, rest))

def maxLevels : Nat := 127

end GatewayEnrichment.Json
