import GatewayEnrichment.Json.Schema
import GatewayEnrichment.Json.Skim
import GatewayEnrichment.Json.Value

/-! Reading a text as a schema says, from left to right and without a value in between. The first
problem that is met is the answer, and the values of unknown members are only passed over. -/

namespace GatewayEnrichment.Json

def misfit {α : Type} (m : Mismatch) : Except Flaw α := .error (.mismatch m)

def fitting {α : Type} (e : Except Mismatch α) : Except Flaw α := e.mapError .mismatch

def refuse {α : Type} (wanted : Wanted) : Reader α := fun input => do
  let (found, _) ← readValueWith Value.found (fun rest => .ok (.sequence, rest))
    (fun rest => .ok (.mapping, rest)) input
  misfit (.wrongType found wanted)

def readText : Reader String := fun input =>
  match skipSpace input with
  | Mark.quote :: rest => readString rest
  | input => refuse .text input

def readFlag : Reader Bool := fun input =>
  let input := skipSpace input
  match input with
  | Mark.t :: _ => (readWord (octets "true") input).map fun (_, rest) => (true, rest)
  | Mark.f :: _ => (readWord (octets "false") input).map fun (_, rest) => (false, rest)
  | _ => refuse .flag input

/-- A whole number is rounded once, any other one first to a double. -/
def Numeral.toBinary (f : Format) : Numeral → Binary f
  | .integer z => Binary.ofInt z
  | .floating x => x.convert f

def Numeral.toInt32 : Numeral → Except Mismatch Int32
  | .integer z =>
    if Int32.minValue.toInt ≤ z ∧ z ≤ Int32.maxValue.toInt then .ok (Int32.ofInt z)
    else .error (.outOfRange z .int32)
  | .floating x => .error (.wrongType (.floating x) .int32)

def readNumeral {α : Type} (wanted : Wanted) (use : Numeral → Except Mismatch α) : Reader α :=
  fun input =>
    match skipSpace input with
    | [] => .error .truncated
    | c :: rest =>
      if c = Mark.minus ∨ isDigit c then do
        let (n, rest) ← Numeral.read (c :: rest)
        return (← fitting (use n), rest)
      else refuse wanted (c :: rest)

def readNullable {α : Type} (inner : Reader α) : Reader (Option α) := fun input =>
  let input := skipSpace input
  match input with
  | Mark.n :: _ => (readWord (octets "null") input).map fun (_, rest) => (none, rest)
  | _ => (inner input).map fun (a, rest) => (some a, rest)

def readListOf {α : Type} (item : Reader α) : Reader (List α) := fun input =>
  match skipSpace input with
  | Mark.openList :: rest => do
    let (items, rest) ← walkItems (fun seen input => do
      let (a, rest) ← item input
      return (a :: seen, rest)) [] rest
    let (_, rest) ← closeItems rest
    return (items.reverse, rest)
  | input => refuse .sequence input

def readTable : Reader Table := fun input =>
  match skipSpace input with
  | Mark.openObject :: rest => do
    let (t, rest) ← walkMembers (fun key t input => do
      let (_, rest) ← readColon input
      let (s, rest) ← readText rest
      return (Table.insert t key s, rest)) Table.empty rest
    let (_, rest) ← closeMembers rest
    return (t, rest)
  | input => refuse .table input

def shortRecord (record : String) (fields index : Nat) {α : Type} (e : Except Mismatch α) :
    Except Mismatch α :=
  e.mapError fun _ => .tooShort index record fields

mutual

def Schema.read : (s : Schema) → Reader s.Val
  | .text => readText
  | .flag => readFlag
  | .number f => readNumeral (.number f) fun n => .ok (n.toBinary f)
  | .int32 => readNumeral .int32 Numeral.toInt32
  | .nullable s => readNullable s.read
  | .list s => readListOf s.read
  | .table => readTable
  | .record name fs => fun input =>
    match skipSpace input with
    | Mark.openList :: rest => do
      let (vs, rest) ← fs.readItems name fs.count 0 rest
      let (_, rest) ← closeItems rest
      return (vs, rest)
    | Mark.openObject :: rest => do
      let (seen, rest) ← walkMembers fs.readMember fs.unseen rest
      let vs ← fitting (fs.complete seen)
      let (_, rest) ← closeMembers rest
      return (vs, rest)
    | input => refuse (.record name) input

def Fields.readItems (record : String) (fields : Nat) : (fs : Fields) → Nat → Reader fs.Vals
  | .nil, _ => fun input => .ok ((), input)
  | .cons name presence s fs, index => fun input => do
    let (more, input) ← nextItem Mark.closeList (index == 0) input
    let (v, input) ←
      if more then s.read input
      else (fitting (shortRecord record fields index (presence.absent name s))).map (·, input)
    let (vs, input) ← fs.readItems record fields (index + 1) input
    return ((v, vs), input)

def Fields.readMember : (fs : Fields) → String → fs.Seen → Reader fs.Seen
  | .nil, _, () => fun input => do
    let (_, rest) ← readColon input
    let (_, rest) ← skimValue rest
    return ((), rest)
  | .cons name _ s fs, key, (v, seen) => fun input =>
    if key = name then
      match v with
      | some _ => misfit (.duplicateField name)
      | none => do
        let (_, rest) ← readColon input
        let (v, rest) ← s.read rest
        return ((some v, seen), rest)
    else do
      let (seen, rest) ← fs.readMember key seen input
      return ((v, seen), rest)

end

end GatewayEnrichment.Json
