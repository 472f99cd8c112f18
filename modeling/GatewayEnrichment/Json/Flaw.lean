import GatewayEnrichment.Binary.Layout
import GatewayEnrichment.Text.Quoted

/-! What can be wrong with a JSON text, by cause: it stops too early, it is no JSON, or it is JSON
that does not fit what is read from it. Only the last kind has a wording of its own. -/

namespace GatewayEnrichment.Json

inductive Found where
  | null
  | flag (b : Bool)
  | integer (z : Int)
  | floating (x : Binary .double)
  | text (s : String)
  | sequence
  | mapping
  deriving DecidableEq, Repr

inductive Wanted where
  | text
  | flag
  | number (f : Format)
  | int32
  | sequence
  | table
  | record (name : String)
  | tag
  | tagged (name : String)
  deriving DecidableEq, Repr

inductive Mismatch where
  | missingField (name : String)
  | duplicateField (name : String)
  | wrongType (found : Found) (wanted : Wanted)
  | outOfRange (z : Int) (wanted : Wanted)
  | tooShort (length : Nat) (record : String) (fields : Nat)
  | tooLong (length : Nat) (fields : Nat)
  | unknownTag (tag : String) (known : List String)
  deriving DecidableEq, Repr

inductive Flaw where
  | truncated
  | malformed
  | mismatch (m : Mismatch)
  deriving DecidableEq, Repr

def inTicks (s : String) : String := s!"`{s}`"

def counted (n : Nat) (noun : String) : String :=
  if n = 1 then s!"1 {noun}" else s!"{n} {noun}s"

def Found.message : Found → String
  | .null => "null"
  | .flag b => s!"boolean `{b}`"
  | .integer z => s!"integer `{z}`"
  | .floating x => "floating point " ++ inTicks (x.text?.getD "")
  | .text s => "string " ++ Text.quoted s
  | .sequence => "sequence"
  | .mapping => "map"

def Wanted.message : Wanted → String
  | .text => "a string"
  | .flag => "a boolean"
  | .number f => if f = .single then "f32" else "f64"
  | .int32 => "i32"
  | .sequence => "a sequence"
  | .table => "a map"
  | .record name => s!"struct {name}"
  | .tag => "variant identifier"
  | .tagged name => s!"internally tagged enum {name}"

def Mismatch.message : Mismatch → String
  | .missingField name => s!"missing field `{name}`"
  | .duplicateField name => s!"duplicate field `{name}`"
  | .wrongType found wanted => s!"invalid type: {found.message}, expected {wanted.message}"
  | .outOfRange z wanted => s!"invalid value: integer `{z}`, expected {wanted.message}"
  | .tooShort length record fields =>
    s!"invalid length {length}, expected struct {record} with " ++ counted fields "element"
  | .tooLong length fields =>
    s!"invalid length {length}, expected " ++ counted fields "element" ++ " in sequence"
  | .unknownTag tag known =>
    s!"unknown variant `{tag}`, expected one of " ++ ", ".intercalate (known.map inTicks)

end GatewayEnrichment.Json
