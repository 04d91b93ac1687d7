import RemoteCall.Bytes

/-!
# Messages

What two parties of a remote call say to each other: a request names a method of a service and
carries the blob of its argument, a response tells how the call ended and carries the blob of the
result, and a ping asks for a pong. A `Message` is one of these with the three numbers of its frame.

A service is known by its name, group and version (`ServiceIdentity`), run together into one key.
-/

namespace RemoteCall

/-- The key that a service is published and looked up under. -/
def serviceKey (name group version : String) : String :=
  name ++ group ++ version

/-- Name, group and version of a service. -/
structure ServiceIdentity where
  name : String := ""
  group : String := ""
  version : String := ""
  deriving DecidableEq, Repr

/-- The key of a service's identity. -/
def ServiceIdentity.key (identity : ServiceIdentity) : String :=
  serviceKey identity.name identity.group identity.version

/-- One call of a method. -/
structure Request where
  /-- The caller's name for this call. -/
  id : String
  /-- The service's interface. -/
  interfaceName : String
  method : String
  /-- The names of the parameter types, compared with those of the method. -/
  paramTypes : List String
  /-- The blob of the argument. -/
  parameters : Bytes
  group : String
  version : String
  deriving DecidableEq, Repr

/-- The key of the service that a request is for. -/
def Request.serviceKey (request : Request) : String :=
  RemoteCall.serviceKey request.interfaceName request.group request.version

/-- How a call ended. -/
inductive Outcome where
  | success
  | fail
  deriving DecidableEq, Repr

namespace Outcome

/-- The number of an outcome. -/
def code : Outcome → Nat
  | success => 200
  | fail => 500

/-- The standard message of an outcome. -/
def message : Outcome → String
  | success => "The remote call is successful"
  | fail => "The remote call is fail"

/-- Number and message of an outcome. -/
def text (outcome : Outcome) : String :=
  toString outcome.code ++ " " ++ outcome.message

end Outcome

/-- The answer to a request. -/
structure Response where
  /-- The id of the request that this answers. -/
  requestId : String
  outcome : Outcome
  message : String
  /-- The blob of the result. -/
  data : Option Bytes
  deriving DecidableEq, Repr

namespace Response

/-- The answer of a call that succeeded. -/
def ofData (requestId : String) (data : Option Bytes) : Response :=
  ⟨requestId, .success, Outcome.success.message, data⟩

/-- The answer of a call that failed. -/
def ofFailure (requestId message : String) : Response :=
  ⟨requestId, .fail, message, none⟩

/-- Whether the call succeeded. -/
def isSuccess (response : Response) : Bool :=
  response.outcome = .success

end Response

/-- What a frame is about, without its content. -/
inductive Kind where
  | request
  | response
  | ping
  | pong
  deriving DecidableEq, Repr

namespace Kind

/-- The number of a kind on the wire. -/
def code : Kind → UInt8
  | request => 1
  | response => 2
  | ping => 3
  | pong => 4

/-- The kind with a given number. -/
def ofCode? : UInt8 → Option Kind
  | 1 => some request
  | 2 => some response
  | 3 => some ping
  | 4 => some pong
  | _ => none

/-- Whether frames of this kind only keep a connection alive and have no body on the wire. -/
def isHeartbeat : Kind → Bool
  | ping | pong => true
  | request | response => false

/-- The name of a kind in diagnostics. -/
def name : Kind → String
  | request => "Request"
  | response => "Response"
  | ping => "HeartbeatPing"
  | pong => "HeartbeatPong"

@[simp] theorem ofCode?_code (kind : Kind) : ofCode? kind.code = some kind := by
  cases kind <;> rfl

/-- A number belongs to at most one kind. -/
theorem ofCode?_eq_some_iff {code : UInt8} {kind : Kind} :
    ofCode? code = some kind ↔ code = kind.code := by
  constructor
  · unfold ofCode?
    split <;> intro h <;> cases h <;> rfl
  · rintro rfl
    exact ofCode?_code kind

end Kind

/-- The content of a frame. -/
inductive Body where
  | request (request : Request)
  | response (response : Response)
  | ping
  | pong
  deriving DecidableEq, Repr

namespace Body

/-- The kind of a content. -/
def kind : Body → Kind
  | request _ => .request
  | response _ => .response
  | ping => .ping
  | pong => .pong

/-- The fixed payload of a heartbeat. -/
def heartbeat? : Body → Option String
  | ping => some "ping"
  | pong => some "pong"
  | _ => none

end Body

/-- One frame: the numbers of its header and its content. -/
structure Message where
  /-- The number of the envelope format. -/
  format : UInt8
  /-- The number of the compression. -/
  compression : UInt8
  /-- The number that ties an answering frame to the frame it answers. -/
  id : UInt32
  body : Body
  deriving DecidableEq, Repr

end RemoteCall
