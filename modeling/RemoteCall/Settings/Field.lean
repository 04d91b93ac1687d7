import RemoteCall.Bytes
import RemoteCall.Settings.Basic
import RemoteCall.Toml.Value

/-!
# The fields of settings

Each field has a name and is seen as a scalar, in both directions. Lengths of time are seen as whole
milliseconds. Sections are lists of fields, in the order in which settings are written.
-/

namespace RemoteCall.Settings

open Toml (Scalar)

/-- Why a value is refused for a field. -/
inductive Flaw where
  /-- The value is of another type or out of range. -/
  | unsuited
  /-- No level of logging has this name. -/
  | badLevel (text : String)
  deriving DecidableEq, Repr

/-- A part of a state that is seen as a scalar. -/
structure Field (σ : Type) where
  name : String
  get : σ → Scalar
  set : Scalar → σ → Except Flaw σ

namespace Field

variable {σ τ : Type}

/-- A text. -/
def text (name : String) (get : σ → String) (set : String → σ → σ) : Field σ where
  name := name
  get s := .text (get s)
  set
    | .text value, s => .ok (set value s)
    | _, _ => .error .unsuited

/-- A natural number below a bound. -/
def natBelow (bound : Nat) (name : String) (get : σ → Nat) (set : Nat → σ → σ) : Field σ where
  name := name
  get s := .integer (get s)
  set
    | .integer value, s =>
      if 0 ≤ value && value < bound then .ok (set value.toNat s) else .error .unsuited
    | _, _ => .error .unsuited

/-- A truth value. -/
def boolean (name : String) (get : σ → Bool) (set : Bool → σ → σ) : Field σ where
  name := name
  get s := .boolean (get s)
  set
    | .boolean value, s => .ok (set value s)
    | _, _ => .error .unsuited

/-- A length of time in whole milliseconds. -/
def duration (name : String) (get : σ → Duration) (set : Duration → σ → σ) : Field σ :=
  natBelow (2 ^ 64) name (fun s => (get s).millis) fun n => set (.ofMillis n)

/-- A level of logging by its name. -/
def level (name : String) (get : σ → Level) (set : Level → σ → σ) : Field σ where
  name := name
  get s := .text (get s).name
  set
    | .text value, s =>
      match Level.ofText? value with
      | some level => .ok (set level s)
      | none => .error (.badLevel value)
    | _, _ => .error .unsuited

/-- A field of a part is a field of the whole. -/
def lift (get : τ → σ) (set : σ → τ → τ) (field : Field σ) : Field τ where
  name := field.name
  get t := field.get (get t)
  set value t := (field.set value (get t)).map fun s => set s t

end Field

/-- The fields of the settings of a server. -/
def Server.fields : List (Field Server) :=
  [ .text "host" (·.host) fun v s => { s with host := v },
    .natBelow (2 ^ 16) "port" (·.port.toNat) fun v s => { s with port := .ofNat v },
    .natBelow (2 ^ 32) "weight" (·.weight.toNat) fun v s => { s with weight := .ofNat v },
    .duration "idle_read_timeout" (·.idleTimeout) fun v s => { s with idleTimeout := v },
    .natBelow (2 ^ 64) "worker_threads" (·.workers.toNat) fun v s => { s with workers := .ofNat v },
    .duration "shutdown_timeout" (·.shutdownTimeout) fun v s => { s with shutdownTimeout := v } ]

/-- The fields of the settings of a client. -/
def Client.fields : List (Field Client) :=
  [ .duration "connect_timeout" (·.connectTimeout) fun v s => { s with connectTimeout := v },
    .duration "heartbeat_interval" (·.heartbeatInterval) fun v s =>
      { s with heartbeatInterval := v },
    .duration "request_timeout" (·.requestTimeout) fun v s => { s with requestTimeout := v },
    .text "codec" (·.codec) fun v s => { s with codec := v },
    .text "compress" (·.compression) fun v s => { s with compression := v },
    .text "load_balance" (·.strategy) fun v s => { s with strategy := v } ]

/-- The fields of the settings of the directory. -/
def Directory.fields : List (Field Directory) :=
  [ .text "address" (·.address) fun v s => { s with address := v },
    .text "root_path" (·.root) fun v s => { s with root := v } ]

/-- The fields of the settings of the transport. -/
def Transport.fields : List (Field Transport) :=
  [ .natBelow (2 ^ 64) "max_frame_length" (·.maxFrameLength.toNat) fun v s =>
      { s with maxFrameLength := .ofNat v } ]

/-- The fields of the settings of logging. -/
def Logging.fields : List (Field Logging) :=
  [ .text "app_name" (·.appName) fun v s => { s with appName := v },
    .level "log_level" (·.level) fun v s => { s with level := v },
    .boolean "json_format" (·.isJson) fun v s => { s with isJson := v } ]

/-- The sections with their fields. -/
def sections : List (String × List (Field Settings)) :=
  [ ("server", Server.fields.map (.lift (·.server) fun v s => { s with server := v })),
    ("client", Client.fields.map (.lift (·.client) fun v s => { s with client := v })),
    ("registry", Directory.fields.map (.lift (·.directory) fun v s => { s with directory := v })),
    ("transport", Transport.fields.map (.lift (·.transport) fun v s => { s with transport := v })),
    ("logging", Logging.fields.map (.lift (·.logging) fun v s => { s with logging := v })) ]

/-- The field with a name in the section with a name. -/
def field? (sectionName name : String) : Option (Field Settings) := do
  (← sections.lookup sectionName).find? (·.name = name)

end RemoteCall.Settings
