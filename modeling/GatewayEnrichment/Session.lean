import GatewayEnrichment.Schedule
import GatewayEnrichment.Text.Blank
import GatewayEnrichment.Text.Utf8

/-! A stream of events, one to a line. Blank lines are passed over, lines that hold no event are
skipped and counted, and the enriched uplinks and statuses are written one to a line. A line that
is not UTF-8 ends the session. -/

namespace GatewayEnrichment

inductive Line where
  | blank
  | malformed
  | event (e : Event)
  deriving DecidableEq, Repr

def lineEnd : UInt8 := 0x0A

namespace Line

def ofText (s : String) : Line :=
  let s := trimmed s
  if s = "" then .blank
  else
    match Event.parse (octets s) with
    | .ok e => .event e
    | .error _ => .malformed

def ofOctets (o : Octets) : Except Utf8.Fault Line :=
  match o.text? with
  | some s => .ok (ofText s)
  | none => .error ((Utf8.firstFault o).getD (.incomplete o.length))

def split (o : Octets) : List Octets × Octets :=
  o.foldr (fun c (lines, rest) =>
    if c = lineEnd then ([c] :: lines, rest)
    else
      match lines with
      | [] => ([], c :: rest)
      | line :: lines => ((c :: line) :: lines, rest)) ([], [])

end Line

/-- The stream so far: `pending` is the beginning of a line whose end has not been read, and
`written` holds the lines that were written, the latest first. -/
structure Session where
  schedule : Schedule
  pending : Octets := []
  written : List Octets := []
  skipped : Nat := 0
  fault : Option Utf8.Fault := none

namespace Session

def handle (s : Session) (e : Event) : Session :=
  let (answer, schedule) := s.schedule.handle e
  { s with
    schedule := schedule.settle
    written := (answer.map Event.write).toList ++ s.written }

def readLine (s : Session) (o : Octets) : Session :=
  match s.fault with
  | some _ => s
  | none =>
    match Line.ofOctets o with
    | .error fault => { s with fault := some fault }
    | .ok .blank => s
    | .ok .malformed => { s with skipped := s.skipped + 1 }
    | .ok (.event e) => s.handle e

def feed (s : Session) (o : Octets) : Session :=
  let (lines, rest) := Line.split (s.pending ++ o)
  lines.foldl readLine { s with pending := rest }

def close (s : Session) : Session :=
  match s.pending with
  | [] => s
  | o => { s with pending := [] }.readLine o

def output (s : Session) : List Octets := s.written.reverse

end Session
end GatewayEnrichment
