import RemoteCall.Blob.Reader
import RemoteCall.Envelope.Basic

/-!
# The compact format

A body is the sequence of its fields, each written as in a blob: texts and byte strings behind their
lengths, the outcome as the number of its choice, and the optional data behind its tag. A body of
more than `sizeLimit` bytes is refused, and so are bytes that are left over behind one.
-/

namespace RemoteCall.Envelope

open Blob

/-- The number of an outcome among the two. -/
def outcomeChoice : Outcome → Nat
  | .success => 0
  | .fail => 1

/-- Reads an outcome by its number. -/
def readOutcome : Blob.Reader Outcome := do
  match ← readUnsigned .u32 32 with
  | 0 => return .success
  | 1 => return .fail
  | found => throw (.badChoice found 2)

/-- The bytes of an optional byte string behind its tag. -/
def writeData : Option Bytes → Bytes
  | none => [0]
  | some data => 1 :: writeBytes data

/-- The bytes of a request. -/
def writeRequest (r : Request) : Bytes :=
  writeText r.id ++ writeText r.interfaceName ++ writeText r.method
    ++ writeList writeText r.paramTypes ++ writeBytes r.parameters
    ++ writeText r.group ++ writeText r.version

/-- The bytes of a response. -/
def writeResponse (r : Response) : Bytes :=
  writeText r.requestId ++ writeNat (outcomeChoice r.outcome) ++ writeText r.message
    ++ writeData r.data

/-- Reads a request. -/
def readRequest : Blob.Reader Request := do
  return {
    id := ← readText
    interfaceName := ← readText
    method := ← readText
    paramTypes := ← readList readText
    parameters := ← readList readByte
    group := ← readText
    version := ← readText }

/-- Reads a response. -/
def readResponse : Blob.Reader Response := do
  return {
    requestId := ← readText
    outcome := ← readOutcome
    message := ← readText
    data := ← readOption (readList readByte) }

/-- The serializer of the compact format. -/
def compact : Serializer :=
  .ofParts (fun r => bounded (writeRequest r)) (fun r => bounded (writeResponse r))
    (ofBytes readRequest) (ofBytes readResponse)

end RemoteCall.Envelope
