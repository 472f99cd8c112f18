/-! Why a gateway could not be looked up. A directory gives the cause, and the failure of a lookup
adds the gateway that was asked for. -/

namespace GatewayEnrichment

inductive DirectoryFailure where
  | notFound
  | status (code : Nat)
  | http (detail : String)
  | unavailable (reason : String)
  deriving DecidableEq, Repr

def DirectoryFailure.message : DirectoryFailure → String
  | .notFound => "gateway not found"
  | .status code => s!"unexpected status {code}"
  | .http detail => s!"request failed: {detail}"
  | .unavailable reason => s!"directory unavailable: {reason}"

structure LookupFailure where
  gatewayId : String
  cause : DirectoryFailure
  deriving DecidableEq, Repr

def LookupFailure.message (e : LookupFailure) : String :=
  s!"lookup of gateway {e.gatewayId} failed: {e.cause.message}"

end GatewayEnrichment
