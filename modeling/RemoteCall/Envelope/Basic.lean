import RemoteCall.Fault
import RemoteCall.Message

/-!
# Envelope formats

The body of a frame is a request or a response in one of two formats, which the header names by a
number: a compact binary one and JSON. A `Serializer` writes bodies behind what a buffer already
holds and reads them back; heartbeats have no body.
-/

namespace RemoteCall.Envelope

/-- A format of bodies. -/
inductive Format where
  | compact
  | json
  deriving DecidableEq, Repr

namespace Format

/-- The number of a format on the wire. -/
def code : Format → UInt8
  | compact => 1
  | json => 2

/-- The format with a given number. -/
def ofCode? : UInt8 → Option Format
  | 1 => some compact
  | 2 => some json
  | _ => none

/-- The name that a format is registered under. -/
def name : Format → String
  | compact => "bincode"
  | json => "json"

/-- The format with a given name. -/
def ofName? : String → Option Format
  | "bincode" => some compact
  | "json" => some json
  | _ => none

/-- The format of a caller who names none. -/
def default : Format := compact

@[simp] theorem ofCode?_code (format : Format) : ofCode? format.code = some format := by
  cases format <;> rfl

@[simp] theorem ofName?_name (format : Format) : ofName? format.name = some format := by
  cases format <;> rfl

end Format

/-- Writes and reads the bodies of frames. -/
structure Serializer where
  /-- Adds the bytes of a body to a buffer; a failure may leave some of them there. -/
  write : Body → Bytes → Except Fault Unit × Bytes
  /-- The body of a given kind that some bytes spell. -/
  read : Kind → Bytes → Except Fault Body

/-- The fault of writing or reading a kind that has no body. -/
def noBody (kind : Kind) : Fault :=
  .unreadable (kind.name ++ " frames carry no serialized body")

/-- The serializer of a format that gives the bytes of requests and responses, or refuses them before
anything is written, and reads them back. -/
def Serializer.ofParts (request : Request → Except Fault Bytes)
    (response : Response → Except Fault Bytes) (readRequest : Bytes → Except Fault Request)
    (readResponse : Bytes → Except Fault Response) : Serializer where
  write body buffer :=
    let written :=
      match body with
      | .request r => request r
      | .response r => response r
      | .ping | .pong => .error (noBody body.kind)
    match written with
    | .ok bytes => (.ok (), buffer ++ bytes)
    | .error fault => (.error fault, buffer)
  read kind bytes :=
    match kind with
    | .request => (readRequest bytes).map .request
    | .response => (readResponse bytes).map .response
    | .ping | .pong => .error (noBody kind)

end RemoteCall.Envelope
