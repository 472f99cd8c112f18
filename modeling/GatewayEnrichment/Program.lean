import GatewayEnrichment.Session

/-! The program around a session: what is made of the environment at the start, and how the program
ends. -/

namespace GatewayEnrichment

inductive ProgramFailure where
  | settings (e : SettingsError)
  | records (path : String) (e : LoadFailure)
  | permits (e : PermitsExceeded)
  | notText (fault : Utf8.Fault)
  deriving DecidableEq, Repr

namespace ProgramFailure

def exitCode : ProgramFailure → Nat
  | .permits _ => 101
  | _ => 1

def report? : ProgramFailure → Option String
  | .settings e => some s!"Error: invalid configuration\n\nCaused by:\n    {e.message}"
  | .records path _ => some s!"Error: failed to load gateway records from {path}"
  | .permits _ => none
  | .notText fault => some s!"Error: {fault.message}"

end ProgramFailure

namespace Program

def configure (env : Environment) : Except ProgramFailure Settings :=
  (Settings.fromEnvironment env).mapError .settings

def source (s : Settings) (content : Option Octets) : Except ProgramFailure Source :=
  match s.directoryFile with
  | none => .ok (.unreachable (.ofBase s.accountServer))
  | some path => ((MemoryDirectory.ofFile content).map .memory).mapError (.records path)

def start (s : Settings) (content : Option Octets) (clock : Instant := .zero) :
    Except ProgramFailure Session := do
  let source ← source s content
  let schedule ← (Schedule.ofSettings source s clock).mapError .permits
  return { schedule := schedule }

def finish (s : Session) : Except ProgramFailure Statistics :=
  match s.fault with
  | some fault => .error (.notText fault)
  | none => .ok s.schedule.cache.statistics

end Program
end GatewayEnrichment
