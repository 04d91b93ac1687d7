import RemoteCall.Decimal.Integer
import RemoteCall.Fault
import RemoteCall.Settings.Basic
import RemoteCall.Text.Category

/-!
# Settings from the environment

Six variables override defaults. Numbers may stand between blanks; one that is no number, or that is
out of range, is refused, and the first such variable decides.
-/

namespace RemoteCall.Settings

/-- A number that a variable gives. -/
def variableNumber (environment : String → Option String) (bound : Nat) (name : String) :
    Except Fault (Option Nat) :=
  match environment name with
  | none => .ok none
  | some raw =>
    match Decimal.natBelow? bound (Text.trim raw) with
    | some n => .ok (some n)
    | none => .error (.settings ("Invalid value for " ++ name ++ ": '" ++ raw ++ "'"))

/-- The settings that the variables of an environment give. -/
def ofEnvironment (environment : String → Option String) : Except Fault Settings := do
  let s : Settings := {}
  let port ← variableNumber environment (2 ^ 16) "NETRPC_SERVER_PORT"
  let weight ← variableNumber environment (2 ^ 32) "NETRPC_SERVER_WEIGHT"
  let connect ← variableNumber environment (2 ^ 64) "NETRPC_CONNECT_TIMEOUT_MS"
  let request ← variableNumber environment (2 ^ 64) "NETRPC_REQUEST_TIMEOUT_MS"
  return { s with
    server := { s.server with
      port := (port.map .ofNat).getD s.server.port
      weight := (weight.map .ofNat).getD s.server.weight }
    client := { s.client with
      connectTimeout := (connect.map .ofMillis).getD s.client.connectTimeout
      requestTimeout := (request.map .ofMillis).getD s.client.requestTimeout
      strategy := (environment "NETRPC_LOAD_BALANCE").getD s.client.strategy }
    directory := { s.directory with
      address := (environment "NETRPC_REGISTRY_ADDRESS").getD s.directory.address } }

end RemoteCall.Settings
