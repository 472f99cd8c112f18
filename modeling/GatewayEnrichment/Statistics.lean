import GatewayEnrichment.Binary.Scaling

/-! Counts of what a cache has done: reads with and without an entry, refreshes that reads of stale
entries asked for, lookups by outcome, and the entries that there are now. -/

namespace GatewayEnrichment

structure Statistics where
  hits : Nat := 0
  misses : Nat := 0
  refreshes : Nat := 0
  fetchSuccesses : Nat := 0
  fetchFailures : Nat := 0
  totalEntries : Nat := 0
  deriving DecidableEq, Repr

namespace Statistics

def countHit (s : Statistics) : Statistics := { s with hits := s.hits + 1 }

def countMiss (s : Statistics) : Statistics := { s with misses := s.misses + 1 }

def countRefresh (s : Statistics) : Statistics := { s with refreshes := s.refreshes + 1 }

def countFetch (s : Statistics) (success : Bool) : Statistics :=
  if success then { s with fetchSuccesses := s.fetchSuccesses + 1 }
  else { s with fetchFailures := s.fetchFailures + 1 }

/-- The share of reads that found an entry, and zero before the first read. Both counts become
doubles before they are divided. -/
def hitRate (s : Statistics) : Binary .double :=
  let total := s.hits + s.misses
  if total = 0 then .zero else Binary.quotient (.ofInt s.hits) (.ofInt total)

def summary (s : Statistics) : String :=
  s!"entries={s.totalEntries}, hits={s.hits}, misses={s.misses}, refreshes={s.refreshes}, " ++
    s!"fetched={s.fetchSuccesses}, failed={s.fetchFailures}"

end Statistics
end GatewayEnrichment
