/-!
# Metrics

Counters of what a transport did. All of them only grow, except the number of open connections, which
a closing connection lowers but never below zero.
-/

namespace RemoteCall

/-- The counters of a transport. -/
structure Metrics where
  connectionsTotal : Nat := 0
  connectionsActive : Nat := 0
  framesSent : Nat := 0
  framesReceived : Nat := 0
  callsSucceeded : Nat := 0
  callsFailed : Nat := 0
  heartbeatsSent : Nat := 0
  heartbeatsAnswered : Nat := 0
  protocolErrors : Nat := 0
  correlationErrors : Nat := 0
  deriving DecidableEq, Repr

namespace Metrics

/-- Something worth counting. -/
inductive Event where
  | connectionOpened
  | connectionClosed
  | frameSent
  | frameReceived
  | callSucceeded
  | callFailed
  | heartbeatSent
  | heartbeatAnswered
  | protocolError
  | correlationError
  deriving DecidableEq, Repr

/-- All events. -/
def Event.all : List Event :=
  [.connectionOpened, .connectionClosed, .frameSent, .frameReceived, .callSucceeded, .callFailed,
    .heartbeatSent, .heartbeatAnswered, .protocolError, .correlationError]

/-- The name of an event. -/
def Event.name : Event → String
  | .connectionOpened => "connection_established"
  | .connectionClosed => "connection_closed"
  | .frameSent => "frame_sent"
  | .frameReceived => "frame_received"
  | .callSucceeded => "call_succeeded"
  | .callFailed => "call_failed"
  | .heartbeatSent => "heartbeat_sent"
  | .heartbeatAnswered => "heartbeat_answered"
  | .protocolError => "protocol_error"
  | .correlationError => "correlation_error"

/-- The counters after an event. -/
def count (m : Metrics) : Event → Metrics
  | .connectionOpened =>
    { m with
      connectionsTotal := m.connectionsTotal + 1, connectionsActive := m.connectionsActive + 1 }
  | .connectionClosed => { m with connectionsActive := m.connectionsActive - 1 }
  | .frameSent => { m with framesSent := m.framesSent + 1 }
  | .frameReceived => { m with framesReceived := m.framesReceived + 1 }
  | .callSucceeded => { m with callsSucceeded := m.callsSucceeded + 1 }
  | .callFailed => { m with callsFailed := m.callsFailed + 1 }
  | .heartbeatSent => { m with heartbeatsSent := m.heartbeatsSent + 1 }
  | .heartbeatAnswered => { m with heartbeatsAnswered := m.heartbeatsAnswered + 1 }
  | .protocolError => { m with protocolErrors := m.protocolErrors + 1 }
  | .correlationError => { m with correlationErrors := m.correlationErrors + 1 }

/-- The counters with their names. -/
def counters (m : Metrics) : List (String × Nat) :=
  [ ("connections_total", m.connectionsTotal), ("connections_active", m.connectionsActive),
    ("frames_sent", m.framesSent), ("frames_received", m.framesReceived),
    ("calls_succeeded", m.callsSucceeded), ("calls_failed", m.callsFailed),
    ("heartbeats_sent", m.heartbeatsSent), ("heartbeats_answered", m.heartbeatsAnswered),
    ("protocol_errors", m.protocolErrors), ("correlation_errors", m.correlationErrors) ]

end Metrics

end RemoteCall
