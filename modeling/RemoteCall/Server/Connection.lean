import RemoteCall.Frame.Codec
import RemoteCall.Metrics
import RemoteCall.Service.Provider

/-!
# Connections of a server

A server answers every heartbeat at once and hands every request to its workers; what they give back
is written whenever it is there, so that answers may leave in another order than the requests came in.
An answer repeats the format, the compression and the number of the frame that it answers. A response
that has no frame is replaced by one that reports so.

Three parties share a connection: the reader, a task for each request that the workers have (`Job`),
and the writer. The first two put answers into a queue (`outbox`) that the third one takes them out of.
The reader stops for good when the stream ends, is silent for too long, or brings no frame. The task of
a request is gone when its answer is in the queue. The writer stops when the queue is empty and nobody
is left who could fill it, and only then the connection is closed.

The queue has room for every answer here, since a full one only makes others wait; and what is written
is always taken, since a connection that breaks is outside of this.
-/

namespace RemoteCall.Server

open RemoteCall.Frame

/-- What an answer repeats of the frame that it answers. -/
structure Stamp where
  format : UInt8
  compression : UInt8
  id : UInt32
  deriving DecidableEq, Repr

/-- The stamp of a frame. -/
def Stamp.of (message : Message) : Stamp :=
  ⟨message.format, message.compression, message.id⟩

/-- The message with a stamp and a body. -/
def Stamp.message (stamp : Stamp) (body : Body) : Message :=
  ⟨stamp.format, stamp.compression, stamp.id, body⟩

/-- Identifies a request among those of a connection. -/
abbrev JobNumber := Nat

/-- A request that the workers have. -/
structure Job where
  number : JobNumber
  stamp : Stamp
  request : Request
  deriving DecidableEq, Repr

/-- The answer to a request: what the provider makes of it, unless the workers tell why there is
nothing. -/
def Job.answer (provider : Provider) (job : Job) : Option Fault → Message
  | none => job.stamp.message (.response (provider.handle job.request))
  | some fault => job.stamp.message (.response (.ofFailure job.request.id fault.message))

/-- A connection of a server. -/
structure Connection where
  codec : Codec
  /-- What was received and is no whole frame yet. -/
  received : Bytes
  isReading : Bool
  jobs : List Job
  /-- How many requests came in. -/
  requests : Nat
  /-- Answers that have not left, the oldest first. -/
  outbox : List Message
  isWriting : Bool
  isOpen : Bool

/-- What happens to a connection. -/
inductive Happening where
  /-- A message comes in. -/
  | message (message : Message)
  /-- Reading ends, perhaps by a fault. -/
  | ended (fault : Option Fault)
  /-- A request comes back from the workers, perhaps with the cause why it was not handled. -/
  | returned (number : JobNumber) (fault? : Option Fault)
  /-- The writer takes a turn. -/
  | turn
  /-- The connection is closed if the reader and the writer have stopped. -/
  | closing
  deriving DecidableEq, Repr

/-- What a connection does. -/
inductive Effect where
  /-- It hands a request to the workers. -/
  | dispatched (job : Job)
  /-- It writes a message, as a frame. -/
  | written (message : Message) (frame : Bytes)
  /-- It counts an event. -/
  | counted (event : Metrics.Event)
  deriving DecidableEq, Repr

namespace Connection

/-- A connection that was just accepted. -/
def ofCodec (codec : Codec) : Connection :=
  { codec := codec
    received := []
    isReading := true
    jobs := []
    requests := 0
    outbox := []
    isWriting := true
    isOpen := true }

/-! ## The reader -/

/-- Takes a message. -/
def takeMessage (connection : Connection) (message : Message) : List Effect × Connection :=
  let stamp := Stamp.of message
  match message.body with
  | .ping =>
    ([.counted .frameReceived, .counted .heartbeatAnswered],
      { connection with outbox := connection.outbox ++ [stamp.message .pong] })
  | .request request =>
    let job : Job := ⟨connection.requests + 1, stamp, request⟩
    ([.counted .frameReceived, .dispatched job],
      { connection with jobs := connection.jobs ++ [job], requests := connection.requests + 1 })
  | _ => ([.counted .frameReceived], connection)

/-- Reading ends. -/
def stopReading (connection : Connection) (fault : Option Fault) : List Effect × Connection :=
  (if fault.any (·.isViolation) then [.counted .protocolError] else [],
    { connection with isReading := false })

/-! ## The tasks of requests -/

/-- Takes a request back from the workers. -/
def takeBack (provider : Provider) (connection : Connection) (number : JobNumber)
    (fault? : Option Fault) : Connection :=
  match connection.jobs.find? (·.number = number) with
  | none => connection
  | some job =>
    { connection with
      jobs := connection.jobs.filter fun j => j.number ≠ number
      outbox := connection.outbox ++ [job.answer provider fault?] }

/-! ## The writer -/

/-- The response that reports that an answer has no frame; only responses are replaced. -/
def replacement (message : Message) (fault : Fault) : Option Message :=
  match message.body with
  | .response response =>
    some { message with body := .response (.ofFailure response.requestId fault.message) }
  | _ => none

/-- The frame of an answer, or of what replaces it; returns what was framed. -/
def frameOf (codec : Codec) (message : Message) : Option (Message × Bytes) × Codec :=
  match codec.encode message [] with
  | (.ok (), frame, codec) => (some (message, frame), codec)
  | (.error fault, _, codec) =>
    -- encoding has left nothing behind, so the replacement is the whole answer
    match replacement message fault with
    | none => (none, codec)
    | some message =>
      match codec.encode message [] with
      | (.ok (), frame, codec) => (some (message, frame), codec)
      | (.error _, _, codec) => (none, codec)

/-- Whether somebody may still put an answer into the queue: the reader, or the task of a request. -/
def hasSenders (connection : Connection) : Bool :=
  connection.isReading || !connection.jobs.isEmpty

/-- The writer takes the oldest answer, which leaves unless it has no frame. Without an answer the
writer waits as long as one may come, and otherwise it stops. -/
def write (connection : Connection) : List Effect × Connection :=
  match connection.outbox with
  | message :: rest =>
    let (framed, codec) := frameOf connection.codec message
    (match framed with
      | some (message, frame) => [.written message frame, .counted .frameSent]
      | none => [],
      { connection with codec := codec, outbox := rest })
  | [] =>
    if connection.hasSenders then ([], connection) else ([], { connection with isWriting := false })

/-! ## Steps -/

/-- Closes the connection if the reader and the writer have stopped. -/
def close (connection : Connection) : List Effect × Connection :=
  if connection.isOpen && !connection.isReading && !connection.isWriting then
    ([.counted .connectionClosed], { connection with isOpen := false })
  else ([], connection)

/-- What a connection makes of a happening. Nothing is read any more once reading has ended, and
nothing is written once the writer has stopped. -/
def step (provider : Provider) (connection : Connection) : Happening → List Effect × Connection
  | .message message =>
    if connection.isReading then connection.takeMessage message else ([], connection)
  | .ended fault =>
    if connection.isReading then connection.stopReading fault else ([], connection)
  | .returned number fault? => ([], connection.takeBack provider number fault?)
  | .turn => if connection.isWriting then connection.write else ([], connection)
  | .closing => connection.close

/-- What a connection makes of happenings, one after another. -/
def run (provider : Provider) :
    Connection → List Happening → List Effect × Connection
  | connection, [] => ([], connection)
  | connection, happening :: rest =>
    let (effects, connection) := connection.step provider happening
    let (more, connection) := run provider connection rest
    (effects ++ more, connection)

/-- Takes bytes: the messages that they complete, and the first fault, which ends reading. -/
def receive (provider : Provider) (connection : Connection) (bytes : Bytes) :
    List Effect × Connection :=
  if connection.isReading then
    let decoded := connection.codec.decodeAll (connection.received ++ bytes)
    run provider { connection with received := decoded.left }
      (decoded.messages.map .message ++ (decoded.fault.map fun f => .ended (some f)).toList)
  else ([], connection)

end Connection

end RemoteCall.Server
