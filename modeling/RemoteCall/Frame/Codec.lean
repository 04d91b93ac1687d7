import RemoteCall.BufferPool
import RemoteCall.Extension.Catalogue
import RemoteCall.Frame.Header

/-!
# Frames

`Codec.decode` takes one message off the front of a buffer once all bytes of its frame are there, and
`Codec.encode` adds the frame of a message to the end of one. Encoding prepares the body in a buffer
from the codec's pool, which comes back however the encoding ends.

A fault of the header consumes nothing; any later fault consumes the frame, so that the next frame can
be read.
-/

namespace RemoteCall.Frame

open Extension

/-- What it takes to read and write frames. -/
structure Codec where
  catalogue : Catalogue
  /-- The greatest length of a frame. -/
  limit : Nat
  buffers : BufferPool

namespace Codec

/-- A codec with a limit, which is moved into the range from a header to `sizeLimit`. -/
def ofLimit (catalogue : Catalogue) (limit : Nat) : Codec :=
  ⟨catalogue, min (max limit headerLength) sizeLimit, .standard⟩

/-- A codec with the greatest limit. -/
def standard (catalogue : Catalogue) : Codec :=
  ofLimit catalogue sizeLimit

/-! ## Decoding -/

/-- The content of a frame of a kind. -/
def readBody (codec : Codec) (kind : Kind) (format compression : UInt8) (bytes : Bytes) :
    Except Fault Body :=
  match kind with
  | .ping => .ok .ping
  | .pong => .ok .pong
  | .request | .response => do
    if bytes.isEmpty then throw .missingBody
    let compressor ← codec.catalogue.compressor compression
    let serializer ← codec.catalogue.serializer format
    let plain ← compressor.decompress bytes
    serializer.read kind plain

/-- The message of a whole frame, from the kind on. -/
def readFrame (codec : Codec) (frame : Bytes) : Except Fault Message :=
  match frame with
  | kind :: format :: compression :: a :: b :: c :: d :: body => do
    let some kind := Kind.ofCode? kind | throw (.unknownKind kind)
    let body ← codec.readBody kind format compression body
    return ⟨format, compression, UInt32.ofNat (Bytes.ofBigEndian [a, b, c, d]), body⟩
  | _ => .error (.frameTooShort frame.length)

/-- Takes a message off the front of a buffer; returns what is left in it. -/
def decode (codec : Codec) (buffer : Bytes) : Except Fault (Option Message) × Bytes :=
  if buffer.isEmpty then (.ok none, buffer)
  else
    match frameLength codec.limit buffer with
    | .error fault => (.error fault, buffer)
    | .ok none => (.ok none, buffer)
    | .ok (some length) =>
      match Bytes.cut? length buffer with
      | none => (.ok none, buffer)
      -- from here on the frame is taken, whether it can be read or not
      | some (frame, rest) => ((codec.readFrame (frame.drop 9)).map some, rest)

/-- Messages, the fault that ended them if there is one, and what is left of the buffer. -/
structure Decoded where
  messages : List Message
  fault : Option Fault
  left : Bytes

/-- Decodes messages until none is complete or a fault is found; `found` collects them in reverse.
Every message takes at least a header, so the length of the buffer bounds their number. -/
def decodeFrom (codec : Codec) : Nat → Bytes → List Message → Decoded
  | 0, buffer, found => ⟨found.reverse, none, buffer⟩
  | fuel + 1, buffer, found =>
    match codec.decode buffer with
    | (.ok (some message), rest) => decodeFrom codec fuel rest (message :: found)
    | (.ok none, rest) => ⟨found.reverse, none, rest⟩
    | (.error fault, rest) => ⟨found.reverse, some fault, rest⟩

/-- Decodes messages until none is complete or a fault is found. -/
def decodeAll (codec : Codec) (buffer : Bytes) : Decoded :=
  codec.decodeFrom (buffer.length + 1) buffer []

/-! ## Encoding -/

/-- Prepares the body of a message in a buffer. A failure may leave anything there. -/
def prepare (codec : Codec) (message : Message) (scratch : Buffer) : Except Fault Unit × Buffer :=
  if message.body.kind.isHeartbeat then (.ok (), scratch)
  else
    match codec.catalogue.serializer message.format with
    | .error fault => (.error fault, scratch)
    | .ok serializer =>
      match codec.catalogue.compressor message.compression with
      | .error fault => (.error fault, scratch)
      | .ok compressor =>
        -- writing goes behind what is there: nothing is, as long as the pool keeps its promise
        match serializer.write message.body scratch.bytes with
        | (.error fault, bytes) => (.error fault, scratch.fill bytes)
        | (.ok (), bytes) =>
          let scratch := scratch.fill bytes
          if sizeLimit < bytes.length then
            (.error (.frameTooLong (headerLength + bytes.length)), scratch)
          else
            match compressor.compress bytes with
            | .error fault => (.error fault, scratch)
            | .ok packed => (.ok (), scratch.clear.write packed)

/-- The frame of a message whose body is prepared. -/
def finish (codec : Codec) (message : Message) (body : Bytes) : Except Fault Bytes :=
  let length := headerLength + body.length
  if codec.limit < length then .error (.frameTooLong length)
  else .ok (header length message ++ body)

/-- Adds the frame of a message to a buffer, which stays as it is when that fails. -/
def encode (codec : Codec) (message : Message) (buffer : Bytes) :
    Except Fault Unit × Bytes × Codec :=
  let (scratch, pool) := codec.buffers.acquire
  let (prepared, scratch) := codec.prepare message scratch
  -- the scratch goes back whatever has come of it
  let codec := { codec with buffers := pool.release scratch }
  match prepared.bind fun _ => codec.finish message scratch.bytes with
  | .ok frame => (.ok (), buffer ++ frame, codec)
  | .error fault => (.error fault, buffer, codec)

end Codec

end RemoteCall.Frame
