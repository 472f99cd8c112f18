import GatewayEnrichment.ByGateway
import GatewayEnrichment.Entry
import GatewayEnrichment.Statistics

/-! The entries of all gateways, with the expiry in force and the counts of reads and fetches. A
read of an entry past its expiry asks for a refresh and makes the entry fresh, so that the reads
after it do not ask again. -/

namespace GatewayEnrichment

structure Store where
  entries : ByGateway Entry
  counts : Statistics
  expiry : Option Nat

structure Info where
  record : GatewayRecord := .empty
  failure : Option LookupFailure := none
  needsRefresh : Bool := false
  deriving DecidableEq, Repr

namespace Store

def effective (expiry : Option Nat) : Option Nat := expiry.filter (· ≠ 0)

def withExpiry (expiry : Option Nat) : Store := ⟨.empty, {}, effective expiry⟩

def setExpiry (s : Store) (expiry : Option Nat) : Store := { s with expiry := effective expiry }

def setSuccess (s : Store) (id : String) (record : GatewayRecord) (now : Nat) : Store :=
  { s with
    entries := s.entries.put id (.fetched record now)
    counts := s.counts.countFetch true }

def setFailure (s : Store) (id : String) (failure : LookupFailure) (now : Nat) : Store :=
  let entry := match s.entries.get? id with
    | some e => e.recordFailure failure now
    | none => .failed failure now
  { s with
    entries := s.entries.put id entry
    counts := s.counts.countFetch false }

def setOutcome (s : Store) (id : String) (outcome : Except LookupFailure GatewayRecord)
    (now : Nat) : Store :=
  match outcome with
  | .ok record => s.setSuccess id record now
  | .error failure => s.setFailure id failure now

def isStale (s : Store) (e : Entry) (now : Nat) : Bool :=
  match s.expiry with
  | some expiry => e.isExpired expiry now
  | none => false

def get (s : Store) (id : String) (now : Nat) : Info × Store :=
  match s.entries.get? id with
  | none => ({}, { s with counts := s.counts.countMiss })
  | some e =>
    if s.isStale e now then
      -- fresh from now on, although the refresh has not even been issued
      (⟨e.record, e.failure, true⟩,
        { s with
          entries := s.entries.put id { e with lastUpdated := now }
          counts := s.counts.countHit.countRefresh })
    else (⟨e.record, e.failure, false⟩, { s with counts := s.counts.countHit })

def remove (s : Store) (id : String) : Bool × Store :=
  (s.entries.contains id, { s with entries := s.entries.erase id })

def contains (s : Store) (id : String) : Bool := s.entries.contains id

def size (s : Store) : Nat := s.entries.size

def statistics (s : Store) : Statistics := { s.counts with totalEntries := s.size }

end Store
end GatewayEnrichment
