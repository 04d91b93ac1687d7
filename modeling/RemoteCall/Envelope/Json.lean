import RemoteCall.Envelope.Basic
import RemoteCall.Json.Reader

/-!
# The JSON format

A body is an object of its fields in their order, byte strings being lists of numbers. A reader takes
the fields in any order, each at most once, and skips fields it does not know; it also takes a list of
the values in order. The optional data may be missing; every other field has to be there, and the
first one that is not, in the order of the fields, is reported.
-/

namespace RemoteCall.Envelope

open Json

/-- A byte string as a list of numbers. -/
def bytesJson (bytes : Bytes) : Bytes :=
  Json.writeList (fun b => Json.writeNat b.toNat) bytes

/-- The name of an outcome. -/
def outcomeName : Outcome → String
  | .success => "Success"
  | .fail => "Fail"

/-- The JSON text of a request. -/
def requestJson (r : Request) : Bytes :=
  writeObject [
    ("request_id", Json.writeText r.id),
    ("interface_name", Json.writeText r.interfaceName),
    ("method_name", Json.writeText r.method),
    ("param_types", Json.writeList Json.writeText r.paramTypes),
    ("parameters", bytesJson r.parameters),
    ("group", Json.writeText r.group),
    ("version", Json.writeText r.version)]

/-- The JSON text of a response. -/
def responseJson (r : Response) : Bytes :=
  writeObject [
    ("request_id", Json.writeText r.requestId),
    ("code", Json.writeText (outcomeName r.outcome)),
    ("message", Json.writeText r.message),
    ("data", match r.data with
      | none => writeNull
      | some data => bytesJson data)]

/-- Reads a string. -/
def jsonText : Json.Reader String :=
  Json.readText "a string"

/-- Reads a byte string. -/
def jsonBytes : Json.Reader Bytes :=
  Json.readList Json.readByte

/-- Reads the name of an outcome. -/
def jsonOutcomeName : Json.Reader Outcome := do
  match ← Json.readText "variant identifier" with
  | "Success" => return .success
  | "Fail" => return .fail
  | name => throw (.badChoice name "Success" "Fail")

/-- Reads the word for nothing. -/
def jsonNull : Json.Reader Unit := do
  match ← peekValue with
  | 0x6e => eat; word [0x75, 0x6c, 0x6c]
  | _ => mismatch "unit"

/-- Reads an outcome: its name, or an object with the name as its only key and nothing behind it. -/
def jsonOutcome : Json.Reader Outcome := do
  match ← peek with
  | some 0x7b =>
    eat
    let outcome ← jsonOutcomeName
    colon
    jsonNull
    match ← peek with
    | some 0x7d => eat; return outcome
    | some _ => throw .noValue
    | none => throw .endOfObject
  | some 0x22 => jsonOutcomeName
  | some _ => throw .noValue
  | none => throw .endOfValue

/-- Reads a byte string or the word for nothing. -/
def jsonData : Json.Reader (Option Bytes) := do
  match ← peek with
  | some 0x6e => eat; word [0x75, 0x6c, 0x6c]; return none
  | _ => return some (← jsonBytes)

/-- Skips the value of a field that nobody knows. -/
def skipField {σ : Type} (state : σ) : Json.Reader σ := do
  colon
  skipValue
  return state

/-- The value of a field that has to be there. -/
def required {α : Type} (name : String) : Option α → Except Flaw α
  | some value => .ok value
  | none => .error (.missingField name)

/-- The fields of a request found so far. -/
structure RequestFields where
  id : Option String := none
  interfaceName : Option String := none
  method : Option String := none
  paramTypes : Option (List String) := none
  parameters : Option Bytes := none
  group : Option String := none
  version : Option String := none

/-- Reads one field of a request. -/
def RequestFields.read (key : String) (fields : RequestFields) : Json.Reader RequestFields := do
  match key with
  | "request_id" => return { fields with id := some (← readOnce key fields.id jsonText) }
  | "interface_name" =>
    return { fields with interfaceName := some (← readOnce key fields.interfaceName jsonText) }
  | "method_name" => return { fields with method := some (← readOnce key fields.method jsonText) }
  | "param_types" =>
    return { fields with
      paramTypes := some (← readOnce key fields.paramTypes (Json.readList jsonText)) }
  | "parameters" =>
    return { fields with parameters := some (← readOnce key fields.parameters jsonBytes) }
  | "group" => return { fields with group := some (← readOnce key fields.group jsonText) }
  | "version" => return { fields with version := some (← readOnce key fields.version jsonText) }
  | _ => skipField fields

/-- The request of some fields. -/
def RequestFields.finish (fields : RequestFields) : Except Flaw Request := do
  return {
    id := ← required "request_id" fields.id
    interfaceName := ← required "interface_name" fields.interfaceName
    method := ← required "method_name" fields.method
    paramTypes := ← required "param_types" fields.paramTypes
    parameters := ← required "parameters" fields.parameters
    group := ← required "group" fields.group
    version := ← required "version" fields.version }

/-- Reads a request given as a list of its values. -/
def requestOfList : Json.Reader Request := do
  let shape := "struct RpcRequest with 7 elements"
  return {
    id := ← readNext 0 shape jsonText
    interfaceName := ← readNext 1 shape jsonText
    method := ← readNext 2 shape jsonText
    paramTypes := ← readNext 3 shape (Json.readList jsonText)
    parameters := ← readNext 4 shape jsonBytes
    group := ← readNext 5 shape jsonText
    version := ← readNext 6 shape jsonText }

/-- Reads a request. -/
def jsonRequest : Json.Reader Request :=
  readStructure "struct RpcRequest" {} RequestFields.read RequestFields.finish requestOfList

/-- The fields of a response found so far. -/
structure ResponseFields where
  requestId : Option String := none
  outcome : Option Outcome := none
  message : Option String := none
  data : Option (Option Bytes) := none

/-- Reads one field of a response. -/
def ResponseFields.read (key : String) (fields : ResponseFields) :
    Json.Reader ResponseFields := do
  match key with
  | "request_id" =>
    return { fields with requestId := some (← readOnce key fields.requestId jsonText) }
  | "code" => return { fields with outcome := some (← readOnce key fields.outcome jsonOutcome) }
  | "message" => return { fields with message := some (← readOnce key fields.message jsonText) }
  | "data" => return { fields with data := some (← readOnce key fields.data jsonData) }
  | _ => skipField fields

/-- The response of some fields. -/
def ResponseFields.finish (fields : ResponseFields) : Except Flaw Response := do
  return {
    requestId := ← required "request_id" fields.requestId
    outcome := ← required "code" fields.outcome
    message := ← required "message" fields.message
    data := fields.data.join }

/-- Reads a response given as a list of its values. -/
def responseOfList : Json.Reader Response := do
  let shape := "struct RpcResponse with 4 elements"
  return {
    requestId := ← readNext 0 shape jsonText
    outcome := ← readNext 1 shape jsonOutcome
    message := ← readNext 2 shape jsonText
    data := ← readNext 3 shape jsonData }

/-- Reads a response. -/
def jsonResponse : Json.Reader Response :=
  readStructure "struct RpcResponse" {} ResponseFields.read ResponseFields.finish responseOfList

/-- What a reader makes of a whole text, with a flaw as a fault. -/
def ofJson {α : Type} (reader : Json.Reader α) (bytes : Bytes) : Except Fault α :=
  (Json.readAll reader bytes).mapError fun flaw => .unreadable flaw.message

/-- The serializer of the JSON format. -/
def json : Serializer :=
  .ofParts (fun r => .ok (requestJson r)) (fun r => .ok (responseJson r))
    (ofJson jsonRequest) (ofJson jsonResponse)

end RemoteCall.Envelope
