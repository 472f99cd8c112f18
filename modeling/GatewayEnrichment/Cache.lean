import GatewayEnrichment.Limiter
import GatewayEnrichment.Store

/-! The cache of gateway information, as a state and the steps that change it. A fetch is issued,
gets a permit at once or waits for one, looks its gateway up, and ends with one write to the store.
Reads and removals do not wait for anything. Nothing here decides when a step happens: that is left
to whoever drives the cache, so what holds after all steps holds under every schedule. -/

namespace GatewayEnrichment

inductive Purpose where
  | connect
  | explicit
  | refresh
  deriving DecidableEq, Repr

inductive Stage where
  | issued
  | queued
  | looking (since : Nat)
  deriving DecidableEq, Repr

structure Fetch where
  ticket : Ticket
  gatewayId : String
  purpose : Purpose
  stage : Stage
  deriving DecidableEq, Repr

/-- The state of a cache: `fetches` holds those that have not ended, in the order in which they were
issued, and `issued` counts all that there ever were. -/
structure Cache where
  store : Store
  limiter : Limiter
  fetches : List Fetch := []
  issued : Nat := 0
  lookups : Nat := 0

namespace Cache

def ofBurst (burst : Nat) (expiry : Option Nat) : Except PermitsExceeded Cache := do
  return { store := .withExpiry expiry, limiter := ← Limiter.ofBurst burst }

def setExpiry (c : Cache) (expiry : Option Nat) : Cache :=
  { c with store := c.store.setExpiry expiry }

def fetch? (c : Cache) (t : Ticket) : Option Fetch := c.fetches.find? (·.ticket = t)

def setStage (c : Cache) (t : Ticket) (stage : Stage) : Cache :=
  { c with fetches := c.fetches.map fun f => if f.ticket = t then { f with stage := stage } else f }

def drop (c : Cache) (t : Ticket) : Cache :=
  { c with fetches := c.fetches.filter (·.ticket ≠ t) }

def issue (c : Cache) (purpose : Purpose) (id : String) : Cache :=
  { c with
    fetches := c.fetches ++ [⟨c.issued, id, purpose, .issued⟩]
    issued := c.issued + 1 }

def startLookup (c : Cache) (t : Ticket) (now : Nat) : Cache :=
  { c.setStage t (.looking now) with lookups := c.lookups + 1 }

def poll (c : Cache) (t : Ticket) (now : Nat) : Cache :=
  match c.fetch? t with
  | some ⟨_, _, _, .issued⟩ =>
    let (granted, limiter) := c.limiter.request t
    if granted then { c with limiter := limiter }.startLookup t now
    else { c with limiter := limiter }.setStage t .queued
  | some ⟨_, _, _, .queued⟩ =>
    let (handed, limiter) := c.limiter.collect t
    if handed then { c with limiter := limiter }.startLookup t now else c
  | _ => c

def outcome (id : String) (answer : Except DirectoryFailure GatewayRecord) :
    Except LookupFailure GatewayRecord := answer.mapError (⟨id, ·⟩)

def complete (c : Cache) (t : Ticket) (answer : Except DirectoryFailure GatewayRecord) (now : Nat) :
    Cache :=
  match c.fetch? t with
  | some ⟨_, id, _, .looking _⟩ =>
    -- kept also if the gateway was removed while its lookup was under way
    { c.drop t with store := c.store.setOutcome id (outcome id answer) now }
  | _ => c

def cancel (c : Cache) (t : Ticket) : Cache :=
  match c.fetch? t with
  | some ⟨_, _, _, .queued⟩ => { c.drop t with limiter := c.limiter.withdraw t }
  | some _ => c.drop t
  | none => c

def refill (c : Cache) : Bool × Cache :=
  let (added, limiter) := c.limiter.tryRefill
  (added, { c with limiter := limiter })

def read (c : Cache) (id : String) (now : Nat) : Info × Cache :=
  let (info, store) := c.store.get id now
  let c := { c with store := store }
  (info, if info.needsRefresh then c.issue .refresh id else c)

def remove (c : Cache) (id : String) : Bool × Cache :=
  let (known, store) := c.store.remove id
  (known, { c with store := store })

def available (c : Cache) : Nat := c.limiter.available

def statistics (c : Cache) : Statistics := c.store.statistics

inductive Action where
  | issue (purpose : Purpose) (id : String)
  | poll (t : Ticket) (now : Nat)
  | complete (t : Ticket) (answer : Except DirectoryFailure GatewayRecord) (now : Nat)
  | cancel (t : Ticket)
  | refill
  | read (id : String) (now : Nat)
  | remove (id : String)

def step (c : Cache) : Action → Cache
  | .issue purpose id => c.issue purpose id
  | .poll t now => c.poll t now
  | .complete t answer now => c.complete t answer now
  | .cancel t => c.cancel t
  | .refill => c.refill.2
  | .read id now => (c.read id now).2
  | .remove id => (c.remove id).2

def run (c : Cache) (actions : List Action) : Cache := actions.foldl step c

end Cache
end GatewayEnrichment
