import RemoteCall.Fault
import RemoteCall.Message

/-!
# Headers of frames

A frame starts with sixteen bytes: the mark `grpc`, the version, the length of the whole frame in four
bytes, the kind, the numbers of the envelope format and of the compression, and the frame's number in
four bytes; numbers have their most significant byte first.

`frameLength` looks at the bytes received so far as early as they can be judged: the mark byte by
byte, then the version, then the length.
-/

namespace RemoteCall.Frame

/-- The mark at the start of every frame. -/
def mark : Bytes := [0x67, 0x72, 0x70, 0x63]

/-- The version of the protocol. -/
def version : UInt8 := 1

/-- How many bytes a header has. -/
def headerLength : Nat := 16

/-- The bytes of a header. -/
def header (length : Nat) (message : Message) : Bytes :=
  mark ++ version :: Bytes.bigEndian 4 length
    ++ [message.body.kind.code, message.format, message.compression]
    ++ Bytes.bigEndian 4 message.id.toNat

/-- The length of the frame that a buffer starts with, as soon as it is known; `limit` is the greatest
length allowed. -/
def frameLength (limit : Nat) (buffer : Bytes) : Except Fault (Option Nat) :=
  let received := buffer.take 4
  if received ≠ mark.take received.length then
    .error (.badMagic (received ++ List.replicate (4 - received.length) 0))
  else
    match buffer.drop 4 with
    | [] => .ok none
    | found :: rest =>
      if found ≠ version then .error (.badVersion found)
      else
        match Bytes.cut? 4 rest with
        | none => .ok none
        | some (length, _) =>
          let length := Bytes.ofBigEndian length
          if length < headerLength then .error (.frameTooShort length)
          else if limit < length then .error (.frameTooLong length)
          else .ok (some length)

end RemoteCall.Frame
