import GatewayEnrichment.Json.Direct

/-! Fitting a value that has been read in full to a schema. -/

namespace GatewayEnrichment.Json

def unfit {α : Type} (v : Value) (wanted : Wanted) : Except Mismatch α :=
  .error (.wrongType v.found wanted)

def fitText : Value → Except Mismatch String
  | .text s => .ok s
  | v => unfit v .text

def fitFlag : Value → Except Mismatch Bool
  | .flag b => .ok b
  | v => unfit v .flag

def fitNumeral {α : Type} (wanted : Wanted) (use : Numeral → Except Mismatch α) :
    Value → Except Mismatch α
  | .number n => use n
  | v => unfit v wanted

def fitNullable {α : Type} (inner : Value → Except Mismatch α) : Value → Except Mismatch (Option α)
  | .null => .ok none
  | v => (inner v).map some

def fitListOf {α : Type} (item : Value → Except Mismatch α) : Value → Except Mismatch (List α)
  | .array vs => vs.mapM item
  | v => unfit v .sequence

def fitTable : Value → Except Mismatch Table
  | .object ms => ms.foldlM (fun t m => do return Table.insert t m.1 (← fitText m.2)) Table.empty
  | v => unfit v .table

mutual

def Schema.fit : (s : Schema) → Value → Except Mismatch s.Val
  | .text => fitText
  | .flag => fitFlag
  | .number f => fitNumeral (.number f) fun n => .ok (n.toBinary f)
  | .int32 => fitNumeral .int32 Numeral.toInt32
  | .nullable s => fitNullable s.fit
  | .list s => fitListOf s.fit
  | .table => fitTable
  | .record name fs => fun v =>
    match v with
    | .array vs => fs.fitItems name fs.count 0 vs
    | .object ms => do fs.complete (← ms.foldlM (fun seen m => fs.fitMember m.1 m.2 seen) fs.unseen)
    | v => unfit v (.record name)

def Fields.fitItems (record : String) (fields : Nat) :
    (fs : Fields) → Nat → List Value → Except Mismatch fs.Vals
  | .nil, _, [] => .ok ()
  | .nil, index, vs => .error (.tooLong (index + vs.length) fields)
  | .cons name presence s fs, index, [] => do
    let v ← shortRecord record fields index (presence.absent name s)
    return (v, ← fs.fitItems record fields (index + 1) [])
  | .cons _ _ s fs, index, v :: vs => do
    let v ← s.fit v
    return (v, ← fs.fitItems record fields (index + 1) vs)

def Fields.fitMember : (fs : Fields) → String → Value → fs.Seen → Except Mismatch fs.Seen
  | .nil, _, _, () => .ok ()
  | .cons name _ s fs, key, value, (v, seen) =>
    if key = name then
      match v with
      | some _ => .error (.duplicateField name)
      | none => do return (some (← s.fit value), seen)
    else do return (v, ← fs.fitMember key value seen)

end

end GatewayEnrichment.Json
