import GatewayEnrichment.Text.Table
import GatewayEnrichment.Json.Flaw

/-! The types that a JSON text can be read as. A schema says how a value is written, `Val` is the
type of what is read from it, and a record takes its fields either by name or, in the order in
which they are declared, as the items of an array. -/

namespace GatewayEnrichment.Json

inductive Presence where
  | required
  | optional
  | hiddenWhenEmpty
  deriving DecidableEq, Repr

mutual

inductive Schema where
  | text
  | flag
  | number (f : Format)
  | int32
  | nullable (inner : Schema)
  | list (item : Schema)
  | table
  | record (name : String) (fields : Fields)

inductive Fields where
  | nil
  | cons (name : String) (presence : Presence) (schema : Schema) (rest : Fields)

end

mutual

@[reducible] def Schema.Val : Schema → Type
  | .text => String
  | .flag => Bool
  | .number f => Binary f
  | .int32 => Int32
  | .nullable s => Option s.Val
  | .list s => List s.Val
  | .table => Table
  | .record _ fs => fs.Vals

@[reducible] def Fields.Vals : Fields → Type
  | .nil => Unit
  | .cons _ _ s fs => s.Val × fs.Vals

end

@[reducible] def Fields.Seen : Fields → Type
  | .nil => Unit
  | .cons _ _ s fs => Option s.Val × fs.Seen

def Fields.count : Fields → Nat
  | .nil => 0
  | .cons _ _ _ fs => fs.count + 1

def Fields.names : Fields → List String
  | .nil => []
  | .cons name _ _ fs => name :: fs.names

mutual

def Schema.zero : (s : Schema) → s.Val
  | .text => ""
  | .flag => false
  | .number _ => Binary.zero
  | .int32 => (0 : Int32)
  | .nullable _ => none
  | .list _ => []
  | .table => Table.empty
  | .record _ fs => fs.zero

def Fields.zero : (fs : Fields) → fs.Vals
  | .nil => ()
  | .cons _ _ s fs => (s.zero, fs.zero)

end

def Fields.unseen : (fs : Fields) → fs.Seen
  | .nil => ()
  | .cons _ _ _ fs => (none, fs.unseen)

def Presence.absent (presence : Presence) (name : String) (s : Schema) : Except Mismatch s.Val :=
  match presence with
  | .required => .error (.missingField name)
  | _ => .ok s.zero

def Fields.complete : (fs : Fields) → fs.Seen → Except Mismatch fs.Vals
  | .nil, () => .ok ()
  | .cons name presence s fs, (v, seen) => do
    let v ← match v with
      | some v => .ok v
      | none => presence.absent name s
    return (v, ← fs.complete seen)

def Schema.isEmpty : (s : Schema) → s.Val → Bool
  | .list _, vs => vs.isEmpty
  | .table, t => Table.isEmpty t
  | _, _ => false

end GatewayEnrichment.Json
