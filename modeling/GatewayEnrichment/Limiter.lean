/-! A bucket of permits that bounds how often a directory is asked. Whoever finds the pool empty
queues up; a permit that is put back goes to the head of the queue, and to the pool only when
nobody waits. A permit that was handed over but not yet used goes back when its owner gives up. -/

namespace GatewayEnrichment

abbrev Ticket := Nat

structure Limiter where
  burst : Nat
  pool : Nat
  waiting : List Ticket
  handed : List Ticket
  deriving DecidableEq, Repr

structure PermitsExceeded where
  burst : Nat
  deriving DecidableEq, Repr

namespace Limiter

/-- The most permits that a pool can hold: the top three of sixty-four bits are not for counting. -/
def maxPermits : Nat := UInt64.size / 8 - 1

def full (burst : Nat) : Limiter := ⟨burst, burst, [], []⟩

def ofBurst (burst : Nat) : Except PermitsExceeded Limiter :=
  if maxPermits < burst then .error ⟨burst⟩ else .ok (full burst)

def request (l : Limiter) (t : Ticket) : Bool × Limiter :=
  match l.pool with
  | 0 => (false, { l with waiting := l.waiting ++ [t] })
  | n + 1 => (true, { l with pool := n })

def putBack (l : Limiter) : Limiter :=
  match l.waiting with
  | [] => { l with pool := l.pool + 1 }
  | t :: waiting => { l with waiting := waiting, handed := l.handed ++ [t] }

def tryRefill (l : Limiter) : Bool × Limiter :=
  -- permits that are handed over and not yet used are not looked at
  if l.burst ≤ l.pool then (false, l) else (true, l.putBack)

def collect (l : Limiter) (t : Ticket) : Bool × Limiter :=
  if t ∈ l.handed then (true, { l with handed := l.handed.erase t }) else (false, l)

def withdraw (l : Limiter) (t : Ticket) : Limiter :=
  if t ∈ l.handed then { l with handed := l.handed.erase t }.putBack
  else { l with waiting := l.waiting.erase t }

def available (l : Limiter) : Nat := l.pool

end Limiter

def PermitsExceeded.message (_ : PermitsExceeded) : String :=
  s!"a semaphore may not have more than MAX_PERMITS permits ({Limiter.maxPermits})"

end GatewayEnrichment
