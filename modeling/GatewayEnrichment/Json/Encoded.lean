import GatewayEnrichment.Json.Buffered
import GatewayEnrichment.Json.Writer

/-! Types with a JSON form. Such a type is the type of values of a schema up to renaming, so what
holds of reading and writing by schemas holds of it. -/

namespace GatewayEnrichment.Json

class Encoded (α : Type) where
  schema : Schema
  toVal : α → schema.Val
  ofVal : schema.Val → α
  ofVal_toVal : ∀ a, ofVal (toVal a) = a
  toVal_ofVal : ∀ v, toVal (ofVal v) = v

section

variable {α : Type} [Encoded α]

def read : Reader α := fun input =>
  ((Encoded.schema α).read input).map fun (v, rest) => (Encoded.ofVal v, rest)

def fit (v : Value) : Except Mismatch α := ((Encoded.schema α).fit v).map Encoded.ofVal

def parse (α : Type) [Encoded α] (input : Octets) : Except Flaw α := atEnd read input

def write (a : α) : Octets := (Encoded.schema α).write (Encoded.toVal a)

end

instance (α : Type) [Encoded α] : Encoded (List α) where
  schema := .list (Encoded.schema α)
  toVal := List.map Encoded.toVal
  ofVal := List.map Encoded.ofVal
  ofVal_toVal as := by
    simp [List.map_map, Function.comp_def, Encoded.ofVal_toVal]
  toVal_ofVal vs := by
    simp [List.map_map, Function.comp_def, Encoded.toVal_ofVal]

end GatewayEnrichment.Json
