import GatewayEnrichment.Text.Blank
import GatewayEnrichment.Text.Quoted

/-! The settings of the program, read from the environment. A variable whose value is not UTF-8
counts as one that is not set. -/

namespace GatewayEnrichment

structure Settings where
  accountServer : String := "https://account.thethingsnetwork.org"
  requestIntervalMs : Nat := 50
  requestBurst : Nat := 50
  expireSecs : Nat := 0
  directoryTimeoutSecs : Nat := 10
  directoryFile : Option String := none
  deriving DecidableEq, Repr

inductive SettingsError where
  | invalidValue (name value : String)
  | zeroBurst
  deriving DecidableEq, Repr

def SettingsError.message : SettingsError → String
  | .invalidValue name value => "invalid value " ++ Text.quoted value ++ " for " ++ name
  | .zeroBurst => "request burst must be at least 1"

abbrev Environment := String → Option Octets

namespace Settings

def appended? (n : Nat) (digit : Char) : Option Nat :=
  if digit.isDigit then
    let n := 10 * n + (digit.toNat - '0'.toNat)
    if n < UInt64.size then some n else none
  else none

/-- A natural number below 2^64 in decimal digits, with or without a plus sign before them. It is
refused at the digit with which it becomes too large. -/
def natural? (s : String) : Option Nat :=
  let digits := match s.toList with
    | '+' :: ds => ds
    | ds => ds
  if digits = [] then none else digits.foldlM appended? 0

def textOf (env : Environment) (name : String) : Option String := env name >>= Octets.text?

def naturalOf (env : Environment) (name : String) (default : Nat) : Except SettingsError Nat :=
  match textOf env name with
  | none => .ok default
  | some value =>
    match natural? (trimmed value) with
    | some n => .ok n
    | none => .error (.invalidValue name value)

def validate (s : Settings) : Except SettingsError Settings :=
  if s.requestBurst = 0 then .error .zeroBurst else .ok s

def fromEnvironment (env : Environment) : Except SettingsError Settings := do
  let defaults : Settings := {}
  let interval ← naturalOf env "REQUEST_INTERVAL_MS" defaults.requestIntervalMs
  let burst ← naturalOf env "REQUEST_BURST" defaults.requestBurst
  let expire ← naturalOf env "INFO_EXPIRE_SECS" defaults.expireSecs
  let timeout ← naturalOf env "DIRECTORY_TIMEOUT_SECS" defaults.directoryTimeoutSecs
  validate
    { accountServer := (textOf env "ACCOUNT_SERVER").getD defaults.accountServer
      requestIntervalMs := interval
      requestBurst := burst
      expireSecs := expire
      directoryTimeoutSecs := timeout
      directoryFile := (textOf env "DIRECTORY_FILE").filter (· ≠ "") }

def expirySecs (s : Settings) : Option Nat := if s.expireSecs = 0 then none else some s.expireSecs

end Settings
end GatewayEnrichment
