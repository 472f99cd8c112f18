import GatewayEnrichment.Directory
import GatewayEnrichment.Enrichment
import GatewayEnrichment.Settings
import GatewayEnrichment.Ticker

/-! A cache that is driven by a clock. Time stands still while the cache works: every fetch goes on
as far as it can before the clock moves again. The clock counts milliseconds, a lookup takes a
fixed time and reads the directory at its end, and the timer puts permits back. -/

namespace GatewayEnrichment

inductive Ending where
  | completed (outcome : Except LookupFailure GatewayRecord)
  | aborted

/-- A cache with its clock. The fetches in `condemned` are to be aborted as soon as the cache works
again, and those in `finished` have ended, the latest first. The timer may be stopped. -/
structure Schedule where
  cache : Cache
  source : Source
  latency : Nat := 0
  now : Nat := 0
  ticker : Option Ticker := none
  condemned : List Ticket := []
  finished : List (Ticket × Ending) := []

namespace Schedule

def start (source : Source) (interval burst : Nat) (expiry : Option Nat)
    (clock : Instant := .zero) : Except PermitsExceeded Schedule := do
  return { cache := ← Cache.ofBurst burst expiry, source := source,
           ticker := Ticker.arm? interval clock }

def ofSettings (source : Source) (s : Settings) (clock : Instant := .zero) :
    Except PermitsExceeded Schedule :=
  start source s.requestIntervalMs s.requestBurst (s.expirySecs.map (· * 1000)) clock

def setExpiry (s : Schedule) (expiry : Option Nat) : Schedule :=
  { s with cache := s.cache.setExpiry expiry }

def abortCondemned (s : Schedule) : Schedule :=
  s.condemned.foldl (fun s t =>
    match s.cache.fetch? t with
    | some _ => { s with cache := s.cache.cancel t, finished := (t, .aborted) :: s.finished }
    | none => s) { s with condemned := [] }

def completeDue (s : Schedule) (t : Ticket) : Schedule :=
  match s.cache.fetch? t with
  | some ⟨_, id, _, .looking since⟩ =>
    if since + s.latency ≤ s.now then
      -- the directory is read at the end of the lookup, not at its beginning
      let answer := s.source.answer id
      { s with
        cache := s.cache.complete t answer s.now
        finished := (t, .completed (Cache.outcome id answer)) :: s.finished }
    else s
  | _ => s

def advanceFetch (s : Schedule) (t : Ticket) : Schedule :=
  { s with cache := s.cache.poll t s.now }.completeDue t

def settle (s : Schedule) : Schedule :=
  -- aborts come first, so that no permit goes to a fetch that is given up
  let s := s.abortCondemned
  (s.cache.fetches.map (·.ticket)).foldl advanceFetch s

def refill (s : Schedule) : Bool × Schedule :=
  let (added, cache) := s.cache.refill
  (added, { s with cache := cache })

def tick (s : Schedule) : Schedule :=
  match s.ticker with
  | none => s
  | some ticker =>
    let (n, ticker) := ticker.serve s.now
    n.repeat (fun s => s.refill.2.settle) { s with ticker := some ticker }

def jump (s : Schedule) (ms : Nat) : Schedule := ({ s with now := s.now + ms }.settle).tick

def run (s : Schedule) (ms : Nat) : Schedule := ms.repeat (·.jump 1) s

def issue (s : Schedule) (purpose : Purpose) (id : String) : Ticket × Schedule :=
  (s.cache.issued, { s with cache := s.cache.issue purpose id })

def handle (s : Schedule) (e : Event) : Option Event × Schedule :=
  let (answer, cache) := s.cache.handle e s.now
  (answer, { s with cache := cache })

def read (s : Schedule) (id : String) : Info × Schedule :=
  let (info, cache) := s.cache.read id s.now
  (info, { s with cache := cache })

def remove (s : Schedule) (id : String) : Bool × Schedule :=
  let (known, cache) := s.cache.remove id
  (known, { s with cache := cache })

def abort (s : Schedule) (t : Ticket) : Bool × Schedule :=
  ((s.cache.fetch? t).isSome, { s with condemned := s.condemned ++ [t] })

def stopTimer (s : Schedule) : Bool × Schedule := (s.ticker.isSome, { s with ticker := none })

def takeFinished (s : Schedule) : List (Ticket × Ending) × Schedule :=
  (s.finished.mergeSort fun a b => a.1 ≤ b.1, { s with finished := [] })

def untilTick (s : Schedule) : Schedule :=
  match s.ticker with
  | none => s
  | some ticker => s.jump (ticker.due - s.now)

def awaitLookups (count : Nat) : Nat → Schedule → Schedule
  | 0, s => s
  | ticks + 1, s =>
    if s.cache.lookups < count then awaitLookups count ticks s.untilTick else s

end Schedule
end GatewayEnrichment
