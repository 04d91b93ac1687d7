import RemoteCall.Decimal.Integer
import RemoteCall.Fault
import RemoteCall.Settings.Basic

/-!
# Validation

Settings are valid when they have no problem. The problems are found section by section, and within a
section in the order of its fields; a field has at most one.
-/

namespace RemoteCall.Settings

/-- What can be wrong with settings. -/
inductive Problem where
  | emptyHost
  | badHost (host : String)
  | zeroWeight
  | shortIdleTimeout
  | manyWorkers (count : UInt64)
  | shortShutdown
  | longShutdown
  | shortConnect
  | longConnect
  | shortHeartbeat
  | longHeartbeat
  | shortRequest
  | unknownCodec (name : String)
  | unknownCompression (name : String)
  | unknownStrategy (name : String)
  | badDirectoryAddress (address : String)
  | relativeRoot (root : String)
  | rootEndsInSlash (root : String)
  | frameTooShort
  | frameTooLong (length : UInt64)
  | emptyAppName
  | longAppName (length : Nat)
  deriving DecidableEq, Repr

/-- A text between single quotes. -/
def inQuotes (text : String) : String := "'" ++ text ++ "'"

/-- The wording of a problem. -/
def Problem.text : Problem → String
  | emptyHost => "Server host cannot be empty"
  | badHost host =>
    "Invalid server host: " ++ inQuotes host ++ " (expected an IP address such as '0.0.0.0')"
  | zeroWeight => "Server weight must be greater than 0"
  | shortIdleTimeout => "Idle read timeout too short (minimum: 100ms)"
  | manyWorkers count =>
    "Worker threads very high: " ++ toString count.toNat ++ " (maximum: 4096)"
  | shortShutdown => "Shutdown timeout too short (minimum: 1s)"
  | longShutdown => "Shutdown timeout too long (maximum: 60s)"
  | shortConnect => "Connect timeout too short (minimum: 100ms)"
  | longConnect => "Connect timeout too long (maximum: 300s)"
  | shortHeartbeat => "Heartbeat interval too short (minimum: 100ms)"
  | longHeartbeat => "Heartbeat interval too long (maximum: 1 hour)"
  | shortRequest => "Request timeout too short (minimum: 10ms, or 0 to disable)"
  | unknownCodec name => "Unknown codec: " ++ inQuotes name
  | unknownCompression name => "Unknown compression: " ++ inQuotes name
  | unknownStrategy name =>
    "Unknown load balance strategy: " ++ inQuotes name ++ " (expected one of: "
      ++ ", ".intercalate (Balance.Strategy.all.map (·.name)) ++ ")"
  | badDirectoryAddress address =>
    "Invalid registry address: " ++ inQuotes address ++ " (expected format: 'host:port')"
  | relativeRoot root => "Registry root path must be absolute: " ++ inQuotes root
  | rootEndsInSlash root => "Registry root path must not end with '/': " ++ inQuotes root
  | frameTooShort =>
    "Max frame length must exceed the " ++ toString Frame.headerLength ++ "-byte header"
  | frameTooLong length =>
    "Max frame length too large: " ++ toString length.toNat ++ " bytes (maximum: "
      ++ toString frameLimit ++ ")"
  | emptyAppName => "Application name cannot be empty"
  | longAppName length =>
    "Application name too long: " ++ toString length ++ " characters (maximum: 64)"

/-- A problem where a condition holds. -/
def Problem.when (condition : Bool) (problem : Problem) : Option Problem :=
  if condition then some problem else none

open Problem

/-- The problems that were found. -/
def found (problems : List (Option Problem)) : List Problem := problems.filterMap id

/-- The address that a server listens at. -/
def Server.listenAddress? (s : Server) : Option SocketAddress :=
  SocketAddress.ofText? (s.host ++ ":" ++ toString s.port.toNat)

/-- The problems of the settings of a server. -/
def Server.problems (s : Server) : List Problem :=
  found [
    if s.host.isEmpty then some emptyHost
    else when s.listenAddress?.isNone (badHost s.host),
    when (s.weight = 0) zeroWeight,
    when (s.idleTimeout.millis < 100) shortIdleTimeout,
    when (4096 < s.workers) (manyWorkers s.workers),
    if s.shutdownTimeout.seconds < 1 then some shortShutdown
    else when (60 < s.shutdownTimeout.seconds) longShutdown ]

/-- The problems of the settings of a client. -/
def Client.problems (s : Client) : List Problem :=
  found [
    if s.connectTimeout.millis < 100 then some shortConnect
    else when (300 < s.connectTimeout.seconds) longConnect,
    if s.heartbeatInterval.millis < 100 then some shortHeartbeat
    else when (3600 < s.heartbeatInterval.seconds) longHeartbeat,
    when (s.requestTimeout.nanos ≠ 0 && s.requestTimeout.millis < 10) shortRequest,
    when (Envelope.Format.ofName? s.codec).isNone (unknownCodec s.codec),
    when (Compression.Method.ofName? s.compression).isNone (unknownCompression s.compression),
    when (!Balance.Strategy.all.any (·.name = s.strategy)) (unknownStrategy s.strategy) ]

/-- Whether a text is a host and a port with a colon between them; the last colon counts. -/
def isHostAndPort (text : String) : Bool :=
  let reversed := text.toList.reverse
  let port := (reversed.takeWhile (· ≠ ':')).reverse
  let host := (reversed.dropWhile (· ≠ ':')).drop 1
  !host.isEmpty && (Decimal.natBelow? (2 ^ 16) (String.ofList port)).isSome

/-- The problems of the settings of the directory. -/
def Directory.problems (s : Directory) : List Problem :=
  let root := s.root.toList
  found [
    when (!isHostAndPort s.address) (badDirectoryAddress s.address),
    if root.head? ≠ some '/' then some (relativeRoot s.root)
    else when (1 < root.length && root.getLast? = some '/') (rootEndsInSlash s.root) ]

/-- The problems of the settings of the transport. -/
def Transport.problems (s : Transport) : List Problem :=
  found [
    if s.maxFrameLength.toNat ≤ Frame.headerLength then some frameTooShort
    else when (frameLimit < s.maxFrameLength.toNat) (frameTooLong s.maxFrameLength) ]

/-- The problems of the settings of logging. A name is measured in bytes. -/
def Logging.problems (s : Logging) : List Problem :=
  found [
    if s.appName.isEmpty then some emptyAppName
    else when (64 < s.appName.utf8ByteSize) (longAppName s.appName.utf8ByteSize) ]

/-- The problems of settings. -/
def problems (s : Settings) : List Problem :=
  s.server.problems ++ s.client.problems ++ s.directory.problems ++ s.transport.problems
    ++ s.logging.problems

/-- The fault that lists problems. -/
def fault (problems : List Problem) : Fault :=
  .settings ("Configuration validation failed:\n  - "
    ++ "\n  - ".intercalate (problems.map (·.text)))

/-- Refuses settings that have a problem. -/
def validate (s : Settings) : Except Fault Unit :=
  if s.problems.isEmpty then .ok () else .error (fault s.problems)

end RemoteCall.Settings
