import RemoteCall.Client.ChannelPool
import RemoteCall.Directory.Discovery
import RemoteCall.Metrics
import RemoteCall.Settings.Problem

/-!
# Clients

A client finds an address for a request, sends the request over the channel to that address, which it
opens if there is none, and keeps a call for it until somebody fetches the outcome or gives the call
up. What the network does about connecting and writing is a parameter (`Network`).

Sending takes two steps: the call is entered (`Client.beginSend`), and later the write of the frame ends
(`Client.endSend`). Whatever else happens to the client may happen in between, so several requests can
be on their way at a time, with equal ids or not.

The response that a channel brings settles the pending call with its request's id; a channel that ends
fails the calls that went out on it.
-/

namespace RemoteCall

open Directory

/-- What comes of connecting to an address. -/
inductive Dial where
  | connected
  /-- The operating system says why not. -/
  | refused (detail : String)
  | timedOut
  deriving DecidableEq, Repr

/-- Why a message is not written to a channel. -/
inductive WriteFailure where
  /-- The operating system says why not. -/
  | refused (detail : String)
  /-- The channel goes down before it is the message's turn. -/
  | channelDown
  deriving DecidableEq, Repr

/-- How the network takes what a client does. -/
structure Network where
  dial : SocketAddress → Dial
  /-- Whether a channel goes down after it was found and before a call is entered. -/
  isLost : ChannelId → Bool
  writeFailure : ChannelId → Option WriteFailure

/-- A network in which nobody can be reached. -/
def Network.down (detail : String) : Network :=
  ⟨fun _ => .refused detail, fun _ => false, fun _ => some (.refused detail)⟩

/-- A call whose outcome was not given up. -/
structure Call where
  ticket : Ticket
  requestId : String
  address : SocketAddress
  /-- Whether the outcome was fetched. -/
  isResolved : Bool
  deriving DecidableEq, Repr

/-- A request on its way: its call is entered, and the write of its frame has not ended. -/
structure Outgoing where
  ticket : Ticket
  /-- The channel as it was when the call was entered. -/
  channel : Channel
  request : Request

/-- A client. -/
structure Client where
  strategy : String
  options : ChannelOptions
  /-- How long an answer may take, if there is a limit. -/
  requestTimeout : Option Duration
  catalogue : Extension.Catalogue
  discovery : Discovery
  pool : ChannelPool
  /-- How many channels were ever opened. -/
  opened : Nat
  pending : Pending
  metrics : Metrics
  calls : List Call
  outgoing : List Outgoing
  /-- Settlements of calls, the latest first. -/
  settlements : List (Ticket × Settlement)

namespace Client

/-- A client that has done nothing yet. -/
def idle (settings : Settings) (format : Envelope.Format) (compression : Compression.Method)
    (catalogue : Extension.Catalogue) : Client :=
  let timeout := settings.client.requestTimeout
  { strategy := settings.client.strategy
    options := .ofSettings settings format compression
    requestTimeout := if timeout.nanos = 0 then none else some timeout
    catalogue := catalogue
    discovery := .ofRoot settings.directory.root catalogue.balancers
    pool := .empty
    opened := 0
    pending := .empty
    metrics := {}
    calls := []
    outgoing := []
    settlements := [] }

/-- An idle client for valid settings that name a format, a compression and a strategy. -/
def ofSettings (settings : Settings) (catalogue : Extension.Catalogue) : Except Fault Client := do
  settings.validate
  let some format := Envelope.Format.ofName? settings.client.codec
    | throw (.settings ("Unknown codec: " ++ settings.client.codec))
  let some compression := Compression.Method.ofName? settings.client.compression
    | throw (.settings ("Unknown compression: " ++ settings.client.compression))
  let _ ← catalogue.balancers.value settings.client.strategy
  return idle settings format compression catalogue

/-- The client after an event of the directory. -/
def absorb (client : Client) (event : Event) : Client :=
  { client with discovery := client.discovery.absorb event }

/-- Counts an event. -/
def count (client : Client) (event : Metrics.Event) : Client :=
  { client with metrics := client.metrics.count event }

/-- Takes over a table of pending calls with what was settled on the way. -/
def settle (client : Client) (settled : Pending.Settled) (pending : Pending) : Client :=
  { client with pending := pending, settlements := settled.reverse ++ client.settlements }

/-- A call to an address begins. -/
def beginActive (client : Client) (address : SocketAddress) : Client :=
  { client with discovery :=
      { client.discovery with active := client.discovery.active.start address.text } }

/-- A call to an address ends. -/
def endActive (client : Client) (address : SocketAddress) : Client :=
  { client with discovery :=
      { client.discovery with active := client.discovery.active.finish address.text } }

/-! ## The end of channels -/

/-- What follows when a channel has become inactive: the calls that went out on it fail. -/
def endReading (client : Client) (id : ChannelId) : Client :=
  let (_, settled, pending) := client.pending.failAll id
  (client.settle settled pending).count .connectionClosed

/-- Takes over a pool in which some channels have become inactive. -/
def withPool (client : Client) (closed : List ChannelId × ChannelPool) : Client :=
  closed.1.foldl endReading { client with pool := closed.2 }

/-- A channel ends, unless it has ended before. -/
def endChannel (client : Client) (id : ChannelId) : Client :=
  client.withPool (client.pool.closeThese [id])

/-- Closes all channels. -/
def close (client : Client) : Client :=
  client.withPool client.pool.closeAll

/-- Closes the channel to an address. -/
def closeAddress (client : Client) (address : SocketAddress) : Client :=
  client.withPool (client.pool.remove address)

/-! ## Opening channels -/

/-- Opens a channel to an address and puts it into the pool. -/
def connect (client : Client) (network : Network) (address : SocketAddress) :
    Except Fault Channel × Client :=
  match network.dial address with
  | .refused detail => (.error (.io detail), client)
  | .timedOut => (.error (.connectTimeout address), client)
  | .connected =>
    let channel := .fresh (client.opened + 1) address
      (.ofLimit client.catalogue client.options.maxFrameLength)
    let client := { client with opened := client.opened + 1 }.count .connectionOpened
    (.ok channel, client.withPool (client.pool.set channel))

/-- The active channel to an address, which is opened if there is none. -/
def channelTo (client : Client) (network : Network) (address : SocketAddress) :
    Except Fault Channel × Client :=
  let (found, pool) := client.pool.get address
  let client := { client with pool := pool }
  match found with
  | some channel => (.ok channel, client)
  | none => client.connect network address

/-! ## Sending -/

/-- Writes the frame of a message to a channel; returns its bytes. A message without a frame leaves
the channel as it is, and a failure of the operating system ends the channel. -/
def write (client : Client) (channel : Channel) (message : Message) (refusal : Option String) :
    Except Fault Bytes × Client :=
  let (result, frame, codec) := channel.codec.encode message []
  let client :=
    { client with pool := client.pool.update channel.id fun c => { c with codec := codec } }
  match result, refusal with
  | .error fault, _ => (.error fault, client)
  | .ok (), none => (.ok frame, client.count .frameSent)
  | .ok (), some detail => (.error (.io detail), client)

/-- Has a message written to a channel, unless the channel goes down before that. -/
def transmit (client : Client) (network : Network) (channel : Channel) (message : Message) :
    Except Fault Bytes × Client :=
  match network.writeFailure channel.id with
  | none => client.write channel message none
  | some (.refused detail) => client.write channel message (some detail)
  | some .channelDown => (.error (.inactive channel.address), client)

/-- Enters a call for a request that goes over a channel to an address. -/
def enter (client : Client) (address : SocketAddress) (channel : Channel) (request : Request) :
    Outgoing × Client :=
  let (ticket, replaced, pending) := client.pending.put request.id channel.id
  let call : Call := ⟨ticket, request.id, address, false⟩
  let outgoing : Outgoing := ⟨ticket, channel, request⟩
  (outgoing, { client.settle replaced pending with
    pool := client.pool.update channel.id fun c => { c with nextFrame := c.nextFrame + 1 }
    calls := client.calls ++ [call]
    outgoing := client.outgoing ++ [outgoing] })

/-- Begins to send a request to an address of its service: finds the address and a channel to it and
enters a call; `numbers` are for the draws of the strategy. -/
def beginSend (client : Client) (network : Network) (store : Store Event) (numbers : List Nat)
    (request : Request) : Except Fault Outgoing × Client × Store Event :=
  let (found, discovery, store) :=
    client.discovery.find store numbers client.strategy request.serviceKey
  let client := { client with discovery := discovery }
  match found with
  | .error fault => (.error fault, client, store)
  | .ok address =>
    match (client.beginActive address).channelTo network address with
    | (.error fault, client) => (.error fault, client.endActive address, store)
    | (.ok channel, client) =>
      -- the end of the channel itself is noticed on its own
      if network.isLost channel.id then
        (.error (.inactive address), client.endActive address, store)
      else
        -- the call is there before anything is written, so that even the fastest answer finds it
        let (outgoing, client) := client.enter address channel request
        (.ok outgoing, client, store)

/-- The request on its way whose call has a ticket. -/
def outgoing? (client : Client) (ticket : Ticket) : Option Outgoing :=
  client.outgoing.find? (·.ticket = ticket)

/-- A request is no longer on its way. -/
def release (client : Client) (outgoing : Outgoing) : Client :=
  { client with outgoing := client.outgoing.filter (·.ticket ≠ outgoing.ticket) }

/-- Fails the call that waits under an id. -/
def fail (client : Client) (id : String) (fault : Fault) : Client :=
  let (_, settled, pending) := client.pending.fail id fault
  client.settle settled pending

/-- The frame of a request on its way goes to the channel. -/
def transmitRequest (client : Client) (network : Network) (outgoing : Outgoing) :
    Except Fault Bytes × Client :=
  let message : Message := ⟨client.options.format, client.options.compression,
    outgoing.channel.nextFrame, .request outgoing.request⟩
  let channel := (client.pool.channel? outgoing.channel.id).getD outgoing.channel
  (client.release outgoing).transmit network channel message

/-- Ends the sending of a request; returns the bytes that were written. If the request cannot be
written, the call that waits under its id fails. -/
def endSend (client : Client) (network : Network) (outgoing : Outgoing) :
    Except Fault Bytes × Client :=
  match client.transmitRequest network outgoing with
  | (.ok frame, client) => (.ok frame, client)
  | (.error fault, client) =>
    let client := client.fail outgoing.request.id fault
    -- only what the operating system refused says something about the channel
    match fault with
    | .io _ => (.error fault, client.endChannel outgoing.channel.id)
    | _ => (.error fault, client)

/-- What comes of sending a request. -/
structure Sending where
  /-- The ticket of the call, or why there is none. -/
  result : Except Fault Ticket
  /-- The frame that was written, with its channel. -/
  frame : Option (ChannelId × Bytes)
  client : Client
  store : Store Event

/-- Sends a request and waits until it is written, while nothing else happens. -/
def send (client : Client) (network : Network) (store : Store Event) (numbers : List Nat)
    (request : Request) : Sending :=
  match client.beginSend network store numbers request with
  | (.error fault, client, store) => ⟨.error fault, none, client, store⟩
  | (.ok outgoing, client, store) =>
    let (written, client) := client.endSend network outgoing
    ⟨.ok outgoing.ticket, written.toOption.map (outgoing.channel.id, ·), client, store⟩

/-- Sends a heartbeat over a channel; a failure ends the channel. -/
def heartbeat (client : Client) (network : Network) (id : ChannelId) :
    Option Bytes × Client :=
  match client.pool.channel? id with
  | none => (none, client)
  | some channel =>
    if channel.isActive then
      let number := channel.lastPing + 1
      let client := { client with
        pool := client.pool.update id fun c => { c with lastPing := number } }
      let message : Message := ⟨client.options.format, client.options.compression, number, .ping⟩
      match client.transmit network channel message with
      | (.ok frame, client) => (some frame, client.count .heartbeatSent)
      | (.error _, client) => (none, client.endChannel id)
    else (none, client)

end Client

end RemoteCall
