import RemoteCall.Client.Channel

/-!
# The pool of channels

A pool keeps, for each address, the channel in use. A channel that is replaced or taken out is closed,
so that at most one active channel of a pool goes to an address. An inactive one is dropped when
somebody asks for it.

The pool also knows every channel that was ever put into it. Operations that close channels tell which
channels became inactive.
-/

namespace RemoteCall

/-- Channels by address. -/
structure ChannelPool where
  /-- Every channel that was ever put in, the latest first. -/
  channels : List Channel
  /-- The channel in use for each address. -/
  inUse : List (SocketAddress × ChannelId)

namespace ChannelPool

/-- No channel was put in. -/
def empty : ChannelPool := ⟨[], []⟩

/-- The channel with a number. -/
def channel? (pool : ChannelPool) (id : ChannelId) : Option Channel :=
  pool.channels.find? (·.id = id)

/-- Changes the channel with a number. -/
def update (pool : ChannelPool) (id : ChannelId) (change : Channel → Channel) : ChannelPool :=
  { pool with channels := pool.channels.map fun c => if c.id = id then change c else c }

/-- Whether the channel with a number is active. -/
def isActive (pool : ChannelPool) (id : ChannelId) : Bool :=
  (pool.channel? id).any (·.isActive)

/-- Makes channels inactive; returns those that were active. -/
def closeThese (pool : ChannelPool) (ids : List ChannelId) : List ChannelId × ChannelPool :=
  (ids.filter pool.isActive, ids.foldl (fun pool id => pool.update id Channel.deactivate) pool)

/-- The number of the channel in use for an address. -/
def idFor (pool : ChannelPool) (address : SocketAddress) : Option ChannelId :=
  pool.inUse.lookup address

/-- Forgets which channel is in use for an address. -/
def forget (pool : ChannelPool) (address : SocketAddress) : ChannelPool :=
  { pool with inUse := pool.inUse.filter fun e => e.1 ≠ address }

/-- The active channel for an address; an inactive one is dropped. -/
def get (pool : ChannelPool) (address : SocketAddress) : Option Channel × ChannelPool :=
  match (pool.idFor address).bind pool.channel? with
  | none => (none, pool)
  | some channel => if channel.isActive then (some channel, pool) else (none, pool.forget address)

/-- Puts a channel in for its address and closes the one that was there, even if it is the same. -/
def set (pool : ChannelPool) (channel : Channel) : List ChannelId × ChannelPool :=
  let previous := (pool.idFor channel.address).toList
  let pool := pool.forget channel.address
  let channels :=
    if (pool.channel? channel.id).isSome then pool.channels else channel :: pool.channels
  closeThese ⟨channels, (channel.address, channel.id) :: pool.inUse⟩ previous

/-- Takes the channel for an address out. -/
def remove (pool : ChannelPool) (address : SocketAddress) : List ChannelId × ChannelPool :=
  (pool.forget address).closeThese (pool.idFor address).toList

/-- Takes all channels out. -/
def closeAll (pool : ChannelPool) : List ChannelId × ChannelPool :=
  closeThese { pool with inUse := [] } (pool.inUse.map fun e => e.2)

/-- How many addresses have a channel. -/
def size (pool : ChannelPool) : Nat :=
  pool.inUse.length

end ChannelPool

end RemoteCall
