import RemoteCall.Balance.Basic
import RemoteCall.Compression.Basic
import RemoteCall.Envelope.Basic
import RemoteCall.Frame.Header
import RemoteCall.Settings.Level

/-!
# Settings

The settings of a process in five sections, each with its defaults. Names of formats, compressions and
strategies are texts here: whether they mean something is for validation to say.

Lengths of time are counted in nanoseconds. The whole milliseconds and seconds in one are rounded
down.
-/

namespace RemoteCall

/-! ## Lengths of time -/

/-- A length of time, counted in nanoseconds. -/
structure Duration where
  nanos : Nat
  deriving DecidableEq, Repr

namespace Duration

/-- So many milliseconds. -/
def ofMillis (n : Nat) : Duration := ⟨1000000 * n⟩

/-- So many seconds. -/
def ofSeconds (n : Nat) : Duration := ofMillis (1000 * n)

/-- The whole milliseconds in a length of time. -/
def millis (d : Duration) : Nat := d.nanos / 1000000

/-- The whole seconds in a length of time. -/
def seconds (d : Duration) : Nat := d.millis / 1000

@[simp] theorem millis_ofMillis (n : Nat) : (ofMillis n).millis = n := by
  simp [ofMillis, millis]

end Duration

namespace Settings

/-! ## Sections -/

/-- The longest frame that settings may allow, and the one they allow by default. -/
def frameLimit : Nat := 8 * 1024 * 1024

/-- Settings of a server. -/
structure Server where
  host : String := "127.0.0.1"
  /-- Port zero stands for any free port. -/
  port : UInt16 := 9995
  weight : UInt32 := 100
  /-- How long a connection may send nothing. -/
  idleTimeout : Duration := .ofSeconds 30
  /-- How many calls are worked on at once; zero leaves it to the machine. -/
  workers : UInt64 := 0
  /-- How long calls in work may take after a shutdown. -/
  shutdownTimeout : Duration := .ofSeconds 10
  deriving DecidableEq, Repr

/-- Settings of a client. -/
structure Client where
  connectTimeout : Duration := .ofSeconds 5
  /-- How long a connection sends nothing before a heartbeat. -/
  heartbeatInterval : Duration := .ofSeconds 15
  /-- How long an answer may take; zero stands for ever. -/
  requestTimeout : Duration := .ofSeconds 30
  codec : String := Envelope.Format.default.name
  compression : String := Compression.Method.lz4.name
  strategy : String := Balance.Strategy.consistentHash.name
  deriving DecidableEq, Repr

/-- Settings of the directory. -/
structure Directory where
  address : String := "127.0.0.1:2181"
  root : String := "/my-rpc"
  deriving DecidableEq, Repr

/-- Settings of the transport. -/
structure Transport where
  /-- The longest frame that is taken, with its header. -/
  maxFrameLength : UInt64 := .ofNat frameLimit
  deriving DecidableEq, Repr

/-- Settings of logging. -/
structure Logging where
  appName : String := "netrpc"
  level : Level := .info
  /-- Whether a line of the log is a JSON object. -/
  isJson : Bool := false
  deriving DecidableEq, Repr

end Settings

/-- All settings. -/
structure Settings where
  server : Settings.Server := {}
  client : Settings.Client := {}
  directory : Settings.Directory := {}
  transport : Settings.Transport := {}
  logging : Settings.Logging := {}
  deriving DecidableEq, Repr

end RemoteCall
