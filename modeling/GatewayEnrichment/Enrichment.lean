import GatewayEnrichment.Cache
import GatewayEnrichment.Message

/-! Filling in what a message leaves open with what the cache knows of its gateway. Nothing that a
message says itself is ever changed. A gateway is looked up when it connects and forgotten when it
disconnects. -/

namespace GatewayEnrichment

def Uplink.enriched (m : Uplink) (info : Info) : Uplink :=
  let trace := match info.failure with
    | some e => m.trace.addEventWith "unable to get gateway info" "error" e.message
    | none => m.trace
  match m.gps, info.record.antennaLocation with
  | none, some location =>
    { m with
      gps := some location.narrowed
      trace := trace.addEvent "injecting gateway location" }
  | _, _ => { m with trace := trace }

def orElse (s other : String) : String := if s = "" then other else s

def Status.enriched (m : Status) (info : Info) : Status :=
  let r := info.record
  { m with
    gps := m.gps.or (r.antennaLocation.map AntennaLocation.narrowed)
    frequencyPlan := orElse m.frequencyPlan r.frequencyPlan
    platform := orElse m.platform r.attributes.platform
    description := orElse m.description (r.attributes.description.getD "") }

def Cache.handle (c : Cache) (e : Event) (now : Nat) : Option Event × Cache :=
  match e with
  | .connect m => (none, c.issue .connect m.gatewayId)
  | .disconnect m => (none, (c.remove m.gatewayId).2)
  | .uplink m =>
    let (info, c) := c.read m.gatewayId now
    (some (.uplink (m.enriched info)), c)
  | .status m =>
    let (info, c) := c.read m.gatewayId now
    (some (.status (m.enriched info)), c)

end GatewayEnrichment
