import GatewayEnrichment.Json.Encoded

/-! Values of one of several types, told apart by a member that names the type. The tag may be any
member of an object, or it is the first item of an array. All else is read in full before the value
is made, so that its type may be known last. -/

namespace GatewayEnrichment.Json

structure Family (κ : Type) where
  name : String
  key : String
  kinds : List κ
  tag : κ → String

/-- The type that the tag named, and what stands beside the tag: an array of the remaining items, or
an object of the remaining members. -/
structure Tagged (κ : Type) where
  kind : κ
  content : Value

namespace Family

variable {κ : Type} (family : Family κ)

def ofTag (s : String) : Except Mismatch κ :=
  match family.kinds.find? (family.tag · = s) with
  | some kind => .ok kind
  | none => .error (.unknownTag s (family.kinds.map family.tag))

def readTag : Reader κ := fun input =>
  match skipSpace input with
  | Mark.quote :: rest => do
    let (s, rest) ← readString rest
    return (← fitting (family.ofTag s), rest)
  | input => refuse .tag input

def readArray : Reader (Tagged κ) := fun input => do
  let (more, input) ← nextItem Mark.closeList true input
  if more then
    let (tag, input) ← family.readTag input
    let (items, rest) ← walk Mark.closeList (fun seen input => do
      let (v, rest) ← readValue (maxLevels - 1) input
      return (v :: seen, rest)) (input.length + 1) false [] input
    let (_, rest) ← closeItems rest
    return (⟨tag, .array items.reverse⟩, rest)
  else misfit (.missingField family.key)

def readMember (key : String) (seen : Option κ × List (String × Value)) :
    Reader (Option κ × List (String × Value)) := fun input =>
  if key = family.key then
    match seen.1 with
    | some _ => misfit (.duplicateField family.key)
    | none => do
      let (_, rest) ← readColon input
      let (tag, rest) ← family.readTag rest
      return ((some tag, seen.2), rest)
  else do
    let (_, rest) ← readColon input
    let (v, rest) ← readValue (maxLevels - 1) rest
    return ((seen.1, (key, v) :: seen.2), rest)

def readObject : Reader (Tagged κ) := fun input => do
  let ((tag, members), rest) ← walkMembers family.readMember (none, []) input
  match tag with
  | none => misfit (.missingField family.key)
  | some tag =>
    let (_, rest) ← closeMembers rest
    return (⟨tag, .object members.reverse⟩, rest)

def read : Reader (Tagged κ) := fun input =>
  match skipSpace input with
  | Mark.openList :: rest => family.readArray rest
  | Mark.openObject :: rest => family.readObject rest
  | input => refuse (.tagged family.name) input

end Family

end GatewayEnrichment.Json
