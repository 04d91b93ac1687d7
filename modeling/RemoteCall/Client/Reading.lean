import RemoteCall.Client.Basic

/-!
# What clients receive

The frames of a channel are taken in the order in which they come. A response settles the pending call
with its request's id, or counts as an error of correlation; the answer to a heartbeat is only counted.
The channel ends with the stream, with the first fault of its frames, or when it is closed.
-/

namespace RemoteCall.Client

/-- Takes a message of a channel. -/
def takeMessage (client : Client) (message : Message) : Client :=
  let client := client.count .frameReceived
  match message.body with
  | .response response =>
    match client.pending.complete response with
    | (.ok (), settled, pending) => client.settle settled pending
    | (.error _, _, _) => client.count .correlationError
  | .pong => client.count .heartbeatAnswered
  | _ => client

/-- Ends a channel after a fault of its frames. -/
def failChannel (client : Client) (id : ChannelId) (fault : Fault) : Client :=
  let client := if fault.isViolation then client.count .protocolError else client
  client.endChannel id

/-- Takes bytes that a channel brings; an inactive channel brings nothing. -/
def receive (client : Client) (id : ChannelId) (bytes : Bytes) : Client :=
  match client.pool.channel? id with
  | none => client
  | some channel =>
    if channel.isActive then
      let decoded := channel.codec.decodeAll (channel.received ++ bytes)
      let client := decoded.messages.foldl takeMessage { client with
        pool := client.pool.update id fun c => { c with received := decoded.left } }
      match decoded.fault with
      | none => client
      | some fault => client.failChannel id fault
    else client

end RemoteCall.Client
