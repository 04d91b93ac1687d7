import RemoteCall.Blob.Parameter
import RemoteCall.Message

/-!
# Typed calls

A proxy stands for one service at the calling side. It turns an argument into a request, and accepts a
response only if that answers the request and reports success; the result is then read from its data.
-/

namespace RemoteCall

open Blob

/-- The result that a response carries. -/
def Response.value {α : Type} (response : Response) (form : Form α) : Except Fault α :=
  match response.data with
  | some data => form.ofBlob data
  | none => .error (.unreadable ("response " ++ response.requestId ++ " carries no data"))

namespace Proxy

variable {α : Type}

/-- The request that calls a method of a service with an argument. -/
def request (identity : ServiceIdentity) (id method : String) (form : Form α) (argument : α) :
    Except Fault Request := do
  return {
    id := id
    interfaceName := identity.name
    method := method
    paramTypes := [form.name]
    parameters := ← form.toBlob argument
    group := identity.group
    version := identity.version }

/-- Accepts a response to a request. -/
def check (identity : ServiceIdentity) (requestId : String) (response : Response) :
    Except Fault Unit :=
  if response.requestId ≠ requestId then
    .error (.foreignResponse requestId response.requestId)
  else if !response.isSuccess then
    .error (.callFailed identity.name requestId response.message)
  else .ok ()

/-- The result of a call. -/
def result (identity : ServiceIdentity) (requestId : String) (form : Form α)
    (response : Response) : Except Fault α := do
  check identity requestId response
  response.value form

end Proxy

end RemoteCall
