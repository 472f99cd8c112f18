import GatewayEnrichment.Failure
import GatewayEnrichment.Record

/-! What is known of one gateway: the record that was last received, the failure of the last lookup
if it failed, and when that was. Times are counted from a common start in any unit. -/

namespace GatewayEnrichment

structure Entry where
  lastUpdated : Nat
  record : GatewayRecord
  failure : Option LookupFailure
  deriving DecidableEq, Repr

namespace Entry

def fetched (record : GatewayRecord) (now : Nat) : Entry := ⟨now, record, none⟩

def failed (failure : LookupFailure) (now : Nat) : Entry := ⟨now, .empty, some failure⟩

def recordFailure (e : Entry) (failure : LookupFailure) (now : Nat) : Entry :=
  { e with lastUpdated := now, failure := some failure }

/-- An entry is still fresh when exactly the expiry has passed. A clock that has gone back counts as
one that stands still. -/
def isExpired (e : Entry) (expiry now : Nat) : Bool := expiry < now - e.lastUpdated

end Entry
end GatewayEnrichment
