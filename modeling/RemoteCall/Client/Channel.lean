import RemoteCall.Client.Pending
import RemoteCall.Frame.Codec
import RemoteCall.Settings.Basic

/-!
# Channels

A channel is a connection of a client to a server. It numbers its request frames from zero and its
heartbeats from one, and it keeps the bytes that are no whole frame yet. Once it is inactive it never
becomes active again.
-/

namespace RemoteCall

/-- How a client's channels work. -/
structure ChannelOptions where
  connectTimeout : Duration
  heartbeatInterval : Duration
  /-- The number of the envelope format of frames that go out. -/
  format : UInt8
  /-- The number of the compression of frames that go out. -/
  compression : UInt8
  maxFrameLength : Nat
  deriving DecidableEq, Repr

/-- The options for a format and a compression, with all else from settings. -/
def ChannelOptions.ofSettings (settings : Settings) (format : Envelope.Format)
    (compression : Compression.Method) : ChannelOptions where
  connectTimeout := settings.client.connectTimeout
  heartbeatInterval := settings.client.heartbeatInterval
  format := format.code
  compression := compression.code
  maxFrameLength := settings.transport.maxFrameLength.toNat

/-- The options of the default settings. -/
def ChannelOptions.standard : ChannelOptions :=
  .ofSettings {} .default .lz4

/-- A connection to a server. -/
structure Channel where
  id : ChannelId
  address : SocketAddress
  isActive : Bool
  /-- The number of the next request frame. -/
  nextFrame : UInt32
  /-- The number of the last heartbeat. -/
  lastPing : UInt32
  codec : Frame.Codec
  /-- What was received and is no whole frame yet. -/
  received : Bytes

namespace Channel

/-- A channel that was just opened. -/
def fresh (id : ChannelId) (address : SocketAddress) (codec : Frame.Codec) : Channel :=
  ⟨id, address, true, 0, 0, codec, []⟩

/-- The channel after it became inactive. -/
def deactivate (channel : Channel) : Channel :=
  { channel with isActive := false }

end Channel

end RemoteCall
