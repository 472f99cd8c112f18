import GatewayEnrichment.Proofs.Json.Arrangement
import GatewayEnrichment.Proofs.Message.Keeping
import GatewayEnrichment.Proofs.Session.Lines

/-! What is written for an event, and what can be read from it. The text is that of a JSON object
whose members are listed here, the tag in front. It is read as an event again, the same one but for
its coordinates, exactly if these have texts. -/

namespace GatewayEnrichment

open Json

def Gps.value (g : Gps) : Value :=
  .object [("latitude", numberValue g.latitude), ("longitude", numberValue g.longitude),
    ("altitude", .number (.integer g.altitude.toInt))]

def TraceEvent.value (e : TraceEvent) : Value :=
  .object (("event", .text e.event) ::
    if e.metadata.isEmpty then []
    else [("metadata", .object (e.metadata.entries.map fun x => (x.1, .text x.2)))])

namespace Event

/-- The members in the order in which they are written. A trace is left out when it is empty, and
a position that is open is not. -/
def members : Event → List (String × Value)
  | .connect m => [("type", .text "connect"), ("gateway_id", .text m.gatewayId)]
  | .disconnect m => [("type", .text "disconnect"), ("gateway_id", .text m.gatewayId)]
  | .uplink m =>
    [("type", .text "uplink"), ("gateway_id", .text m.gatewayId),
      ("gps", (m.gps.map Gps.value).getD .null)] ++
    (if m.trace.isEmpty then [] else [("trace", .array (m.trace.map TraceEvent.value))]) ++
    [("payload", .text m.payload)]
  | .status m =>
    [("type", .text "status"), ("gateway_id", .text m.gatewayId),
      ("gps", (m.gps.map Gps.value).getD .null), ("frequency_plan", .text m.frequencyPlan),
      ("platform", .text m.platform), ("description", .text m.description)]

end Event

namespace Json

theorem value_traceEvent (e : TraceEvent) : value e = e.value := by
  obtain ⟨event, metadata⟩ := e
  rw [TraceEvent.value]
  by_cases h : metadata.isEmpty = true
  · rw [if_pos h]
    exact congrArg Value.object (congrArg (_ :: ·) (if_pos ⟨rfl, h⟩))
  · rw [if_neg h]
    exact congrArg Value.object (congrArg (_ :: ·) (if_neg fun hidden => h hidden.2))

theorem value_gps (gps : Option Gps) :
    (Schema.nullable (Encoded.schema Gps)).value (gps.map Encoded.toVal) =
      (gps.map Gps.value).getD .null := by
  cases gps <;> rfl

theorem value_trace (trace : Trace) :
    (Schema.list (Encoded.schema TraceEvent)).value (trace.map Encoded.toVal) =
      .array (trace.map TraceEvent.value) := by
  change Value.array _ = _
  rw [List.map_map]
  exact congrArg Value.array (List.map_congr_left fun e _ => value_traceEvent e)

end Json

namespace Event

theorem object_tagged (kind : Kind) {fs : Fields} (sound : fs.Sound)
    (depth : fs.depth ≤ maxLevels - 1) (vs : fs.Vals) :
    atEnd (readValue maxLevels)
        (writeMembers (writeMember family.key (writeString kind.tag) :: fs.writeMembers vs)) =
      .ok (.object ((family.key, .text kind.tag) :: fs.members vs)) := by
  have tag : SpellsMember (maxLevels - 1) (writeMember family.key (writeString kind.tag))
      (family.key, .text kind.tag) := ⟨writeString kind.tag, rfl, spells_text kind.tag⟩
  exact objectText_iff.mp (objectText_written (.cons tag (fs.spells_members sound depth vs)))

theorem object_write (e : Event) :
    atEnd (readValue maxLevels) e.write = .ok (.object e.members) := by
  cases e with
  | connect m => exact object_tagged .connect sound_connect.2 (by decide) (Encoded.toVal m)
  | disconnect m => exact object_tagged .disconnect sound_disconnect.2 (by decide) (Encoded.toVal m)
  | status m =>
    refine (object_tagged .status sound_status.2 (by decide) (Encoded.toVal m)).trans ?_
    rw [members, ← value_gps]
    rfl
  | uplink m =>
    refine (object_tagged .uplink sound_uplink.2 (by decide) (Encoded.toVal m)).trans ?_
    obtain ⟨id, gps, trace, payload⟩ := m
    rw [members, ← value_gps, ← value_trace]
    cases trace with
    | nil => rfl
    | cons note trace => rfl

/-- The octets are one line, and they say what the event says. -/
structure WrittenAs (e : Event) (o : Octets) : Prop where
  written : o = e.write
  oneLine : lineEnd ∉ o
  object : atEnd (readValue maxLevels) o = .ok (.object e.members)
  again : (∀ g ∈ e.gps?, g.Finite) → ∃ e', parse o = .ok e' ∧ e.SameBesidesPlace e'
  exactly : (∀ g ∈ e.gps?, g.CarriedBack) → parse o = .ok e

theorem writtenAs_write (e : Event) : e.WrittenAs e.write where
  written := rfl
  oneLine := e.lineEnd_notMem_write
  object := e.object_write
  again finite := by
    obtain ⟨e', reread⟩ := e.exists_reread_iff.mpr finite
    exact ⟨e', by rw [parse_write, reread]; rfl, sameBesidesPlace_of_reread reread⟩
  exactly carried := by
    rw [parse_write, reread_of_carriedBack carried]
    rfl

end Event

end GatewayEnrichment
