import GatewayEnrichment.Program

/-! The command line. Events come in on standard input and go out on standard output; the clock of
the session follows the real one. No transport to an account server is built in, so without a file
of records every lookup fails. -/

namespace GatewayEnrichment.Main

def environmentNames : List String :=
  ["ACCOUNT_SERVER", "REQUEST_INTERVAL_MS", "REQUEST_BURST", "INFO_EXPIRE_SECS",
    "DIRECTORY_TIMEOUT_SECS", "DIRECTORY_FILE"]

def environment : IO Environment := do
  let vars ← environmentNames.mapM fun name => do return (name, ← IO.getEnv name)
  return fun name => ((vars.lookup name).join).map octets

def fileContent (path : String) : IO (Option Octets) := do
  try return some (← IO.FS.readBinFile path).toList
  catch _ => return none

def clock : IO Instant := do return (Instant.zero.later? (← IO.monoMsNow)).getD .zero

def catchUp (started : Nat) (s : Session) : IO Session := do
  let now := (← IO.monoMsNow) - started
  return { s with schedule := s.schedule.run (now - s.schedule.now) }

def writeOutput (output : IO.FS.Stream) (s : Session) : IO Session := do
  for line in s.output do
    output.write ⟨(line ++ [lineEnd]).toArray⟩
    output.flush
  return { s with written := [] }

partial def serve (input output : IO.FS.Stream) (started : Nat) (s : Session) : IO Session := do
  let chunk ← input.read 65536
  let s ← catchUp started s
  if chunk.isEmpty then writeOutput output s.close
  else
    let s ← writeOutput output (s.feed chunk.toList)
    if s.fault.isSome then return s else serve input output started s

def fail (e : ProgramFailure) : IO UInt32 := do
  match e.report? with
  | some text => IO.eprintln text
  | none => pure ()
  return e.exitCode.toUInt32

def runSession (s : Session) : IO UInt32 := do
  let s ← serve (← IO.getStdin) (← IO.getStdout) (← IO.monoMsNow) s
  match Program.finish s with
  | .error e => fail e
  | .ok statistics =>
    IO.eprintln ("Shutdown complete: " ++ statistics.summary)
    return 0

end GatewayEnrichment.Main

open GatewayEnrichment in
def main : IO UInt32 := do
  match Program.configure (← Main.environment) with
  | .error e => Main.fail e
  | .ok settings =>
    let content ← match settings.directoryFile with
      | none => pure none
      | some path => Main.fileContent path
    match Program.start settings content (← Main.clock) with
    | .error e => Main.fail e
    | .ok s => Main.runSession s
