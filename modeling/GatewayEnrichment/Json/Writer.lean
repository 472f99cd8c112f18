import GatewayEnrichment.Json.Schema
import GatewayEnrichment.Json.Quoted

/-! Writing a value as its schema says: without white space, with the fields of a record in the
order in which they are declared. -/

namespace GatewayEnrichment.Json

def separated : List Octets → Octets
  | [] => []
  | [o] => o
  | o :: os => o ++ Mark.comma :: separated os

def writeItems (items : List Octets) : Octets :=
  Mark.openList :: separated items ++ [Mark.closeList]

def writeMember (key : String) (value : Octets) : Octets := writeString key ++ Mark.colon :: value

def writeMembers (members : List Octets) : Octets :=
  Mark.openObject :: separated members ++ [Mark.closeObject]

def writeNumber {f : Format} (x : Binary f) : Octets := octets (x.text?.getD "null")

def writeTable (t : Table) : Octets :=
  writeMembers (t.entries.map fun e => writeMember e.1 (writeString e.2))

mutual

def Schema.write : (s : Schema) → s.Val → Octets
  | .text => writeString
  | .flag => fun b => octets (if b then "true" else "false")
  | .number _ => writeNumber
  | .int32 => fun n => octets (toString n.toInt)
  | .nullable s => fun v =>
    match v with
    | none => octets "null"
    | some v => s.write v
  | .list s => fun vs => writeItems (vs.map s.write)
  | .table => writeTable
  | .record _ fs => fun vs => writeMembers (fs.writeMembers vs)

def Fields.writeMembers : (fs : Fields) → fs.Vals → List Octets
  | .nil, () => []
  | .cons name presence s fs, (v, vs) =>
    if presence = .hiddenWhenEmpty ∧ s.isEmpty v = true then fs.writeMembers vs
    else writeMember name (s.write v) :: fs.writeMembers vs

end

end GatewayEnrichment.Json
