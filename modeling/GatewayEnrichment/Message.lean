import GatewayEnrichment.Record
import GatewayEnrichment.Json.Tagged

/-! The messages of the pipeline that the enrichment reads and writes. An event is one of four
kinds of message, told apart by the member `type`. -/

namespace GatewayEnrichment

structure Gps where
  latitude : Binary .single
  longitude : Binary .single
  altitude : Int32
  deriving DecidableEq, Repr

/-- Coordinates are rounded to the nearest single. The altitude loses its fraction and is moved to
the nearest end of the 32-bit integers where it lies outside them. -/
def AntennaLocation.narrowed (a : AntennaLocation) : Gps where
  latitude := a.latitude.convert .single
  longitude := a.longitude.convert .single
  altitude := Int32.ofInt (a.altitude.truncate Int32.minValue.toInt Int32.maxValue.toInt)

structure TraceEvent where
  event : String
  metadata : Table := .empty
  deriving DecidableEq, Repr

abbrev Trace := List TraceEvent

namespace Trace

def addEvent (t : Trace) (event : String) : Trace := t ++ [⟨event, .empty⟩]

def addEventWith (t : Trace) (event key text : String) : Trace :=
  t ++ [⟨event, Table.empty.insert key text⟩]

end Trace

structure Connect where
  gatewayId : String
  deriving DecidableEq, Repr

structure Disconnect where
  gatewayId : String
  deriving DecidableEq, Repr

structure Uplink where
  gatewayId : String
  gps : Option Gps := none
  trace : Trace := []
  payload : String := ""
  deriving DecidableEq, Repr

structure Status where
  gatewayId : String := ""
  gps : Option Gps := none
  frequencyPlan : String := ""
  platform : String := ""
  description : String := ""
  deriving DecidableEq, Repr

inductive Event where
  | connect (m : Connect)
  | disconnect (m : Disconnect)
  | uplink (m : Uplink)
  | status (m : Status)
  deriving DecidableEq, Repr

def Event.gatewayId : Event → String
  | .connect m => m.gatewayId
  | .disconnect m => m.gatewayId
  | .uplink m => m.gatewayId
  | .status m => m.gatewayId

open Json

instance : Encoded Gps where
  schema := .record "GpsMetadata" <|
    .cons "latitude" .required (.number .single) <|
    .cons "longitude" .required (.number .single) <|
    .cons "altitude" .required .int32 .nil
  toVal g := (g.latitude, g.longitude, g.altitude, ())
  ofVal v := ⟨v.1, v.2.1, v.2.2.1⟩
  ofVal_toVal _ := rfl
  toVal_ofVal _ := rfl

instance : Encoded TraceEvent where
  schema := .record "TraceEvent" <|
    .cons "event" .required .text <|
    .cons "metadata" .hiddenWhenEmpty .table .nil
  toVal e := (e.event, e.metadata, ())
  ofVal v := ⟨v.1, v.2.1⟩
  ofVal_toVal _ := rfl
  toVal_ofVal _ := rfl

instance : Encoded Connect where
  schema := .record "ConnectMessage" <| .cons "gateway_id" .required .text .nil
  toVal m := (m.gatewayId, ())
  ofVal v := ⟨v.1⟩
  ofVal_toVal _ := rfl
  toVal_ofVal _ := rfl

instance : Encoded Disconnect where
  schema := .record "DisconnectMessage" <| .cons "gateway_id" .required .text .nil
  toVal m := (m.gatewayId, ())
  ofVal v := ⟨v.1⟩
  ofVal_toVal _ := rfl
  toVal_ofVal _ := rfl

instance : Encoded Uplink where
  schema := .record "UplinkMessage" <|
    .cons "gateway_id" .required .text <|
    .cons "gps" .optional (.nullable (Encoded.schema Gps)) <|
    .cons "trace" .hiddenWhenEmpty (.list (Encoded.schema TraceEvent)) <|
    .cons "payload" .optional .text .nil
  toVal m := (m.gatewayId, m.gps.map Encoded.toVal, m.trace.map Encoded.toVal, m.payload, ())
  ofVal v := ⟨v.1, v.2.1.map Encoded.ofVal, v.2.2.1.map Encoded.ofVal, v.2.2.2.1⟩
  ofVal_toVal m := by
    simp [Option.map_map, List.map_map, Function.comp_def, Encoded.ofVal_toVal]
  toVal_ofVal v := by
    simp [Option.map_map, List.map_map, Function.comp_def, Encoded.toVal_ofVal]

instance : Encoded Status where
  schema := .record "StatusMessage" <|
    .cons "gateway_id" .optional .text <|
    .cons "gps" .optional (.nullable (Encoded.schema Gps)) <|
    .cons "frequency_plan" .optional .text <|
    .cons "platform" .optional .text <|
    .cons "description" .optional .text .nil
  toVal m := (m.gatewayId, m.gps.map Encoded.toVal, m.frequencyPlan, m.platform, m.description, ())
  ofVal v := ⟨v.1, v.2.1.map Encoded.ofVal, v.2.2.1, v.2.2.2.1, v.2.2.2.2.1⟩
  ofVal_toVal m := by
    simp [Option.map_map, Function.comp_def, Encoded.ofVal_toVal]
  toVal_ofVal v := by
    simp [Option.map_map, Function.comp_def, Encoded.toVal_ofVal]

inductive Kind where
  | connect
  | disconnect
  | uplink
  | status
  deriving DecidableEq, Repr

def Kind.tag : Kind → String
  | .connect => "connect"
  | .disconnect => "disconnect"
  | .uplink => "uplink"
  | .status => "status"

namespace Event

def family : Family Kind where
  name := "PipelineEvent"
  key := "type"
  kinds := [.connect, .disconnect, .uplink, .status]
  tag := Kind.tag

def kind : Event → Kind
  | .connect _ => .connect
  | .disconnect _ => .disconnect
  | .uplink _ => .uplink
  | .status _ => .status

def ofTagged (t : Tagged Kind) : Except Mismatch Event :=
  match t.kind with
  | .connect => (fit t.content).map .connect
  | .disconnect => (fit t.content).map .disconnect
  | .uplink => (fit t.content).map .uplink
  | .status => (fit t.content).map .status

def read : Reader Event := fun input => do
  let (t, rest) ← family.read input
  return (← fitting (ofTagged t), rest)

def parse (input : Octets) : Except Flaw Event := atEnd read input

def writeTagged {α : Type} [Encoded α] (kind : Kind) (a : α) : Octets :=
  match Encoded.schema α, Encoded.toVal a with
  | .record _ fs, v =>
    writeMembers (writeMember family.key (writeString kind.tag) :: fs.writeMembers v)
  | s, v => s.write v

def write : Event → Octets
  | .connect m => writeTagged .connect m
  | .disconnect m => writeTagged .disconnect m
  | .uplink m => writeTagged .uplink m
  | .status m => writeTagged .status m

end Event

end GatewayEnrichment
