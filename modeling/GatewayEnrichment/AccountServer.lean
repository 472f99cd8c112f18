import GatewayEnrichment.Failure
import GatewayEnrichment.Record

/-! The account server as a directory: where a gateway's record is asked for, and what an answer
means. -/

namespace GatewayEnrichment

structure AccountServer where
  baseUrl : String
  deriving DecidableEq, Repr

namespace AccountServer

def ofBase (base : String) : AccountServer :=
  ⟨String.ofList (base.toList.reverse.dropWhile (· = '/')).reverse⟩

def gatewayUrl (s : AccountServer) (id : String) : String :=
  s!"{s.baseUrl}/api/v2/gateways/{id}"

def acceptHeader : String := "accept: application/json"

structure Reply where
  status : Nat
  body : Octets

/-- An answer without content has no body, whatever is sent behind it. -/
def Reply.content (r : Reply) : Octets := if r.status = 204 then [] else r.body

def outcome : Option Reply → Except DirectoryFailure GatewayRecord
  | none => .error (.http "no response")
  | some r =>
    if 200 ≤ r.status ∧ r.status < 300 then
      match Json.parse GatewayRecord r.content with
      | .ok record => .ok record
      | .error _ => .error (.http "error decoding response body")
    else if r.status = 404 then .error .notFound
    else .error (.status r.status)

end AccountServer
end GatewayEnrichment
