import GatewayEnrichment.AccountServer
import GatewayEnrichment.ByGateway

/-! Where records come from: a list of records held in memory, in which gateways can also be marked
as unavailable, or an account server. -/

namespace GatewayEnrichment

inductive Outcome where
  | found (record : GatewayRecord)
  | unavailable (reason : String)
  deriving DecidableEq, Repr

structure MemoryDirectory where
  outcomes : ByGateway Outcome
  lookups : Nat

namespace MemoryDirectory

def empty : MemoryDirectory := ⟨.empty, 0⟩

def insert (d : MemoryDirectory) (record : GatewayRecord) : MemoryDirectory :=
  { d with outcomes := d.outcomes.put record.id (.found record) }

def fail (d : MemoryDirectory) (id reason : String) : MemoryDirectory :=
  { d with outcomes := d.outcomes.put id (.unavailable reason) }

def remove (d : MemoryDirectory) (id : String) : MemoryDirectory :=
  { d with outcomes := d.outcomes.erase id }

def ofRecords (records : List GatewayRecord) : MemoryDirectory := records.foldl insert empty

def answer (d : MemoryDirectory) (id : String) : Except DirectoryFailure GatewayRecord :=
  match d.outcomes.get? id with
  | some (.found record) => .ok record
  | some (.unavailable reason) => .error (.unavailable reason)
  | none => .error .notFound

def find (d : MemoryDirectory) (id : String) :
    Except DirectoryFailure GatewayRecord × MemoryDirectory :=
  (d.answer id, { d with lookups := d.lookups + 1 })

end MemoryDirectory

inductive LoadFailure where
  | missing
  | notText
  | flawed (flaw : Json.Flaw)
  deriving DecidableEq, Repr

def MemoryDirectory.ofFile : Option Octets → Except LoadFailure MemoryDirectory
  | none => .error .missing
  | some content =>
    match content.text? with
    | none => .error .notText
    | some _ =>
      match Json.parse (List GatewayRecord) content with
      | .ok records => .ok (ofRecords records)
      | .error flaw => .error (.flawed flaw)

inductive Source where
  | memory (d : MemoryDirectory)
  | unreachable (s : AccountServer)

def Source.answer (s : Source) (id : String) : Except DirectoryFailure GatewayRecord :=
  match s with
  | .memory d => d.answer id
  | .unreachable _ => AccountServer.outcome none

end GatewayEnrichment
