import RemoteCall.Service.Basic

/-!
# Published services

A provider has the services of a process under their keys. The first service published under a key
stays. Handling a request always gives a response: the result of the method that it names, or the
wording of what went wrong.
-/

namespace RemoteCall

/-- Services by key. -/
structure Provider where
  services : Dictionary Service

namespace Provider

/-- Nothing is published. -/
def empty : Provider := ⟨.empty⟩

/-- Publishes a service under an identity, unless its key is taken. -/
def add (provider : Provider) (service : Service) (identity : ServiceIdentity) : Provider :=
  if provider.services.contains identity.key then provider
  else ⟨provider.services.insert identity.key service⟩

/-- The identity of a service published under its own interface name. -/
def identityOf (service : Service) (group version : String) : ServiceIdentity :=
  ⟨service.interfaceName, group, version⟩

/-- Publishes a service under its interface name. -/
def publish (provider : Provider) (service : Service) (group version : String) : Provider :=
  provider.add service (identityOf service group version)

/-- The service published under a key. -/
def get (provider : Provider) (key : String) : Except Fault Service :=
  match provider.services.get? key with
  | some service => .ok service
  | none => .error (.unpublished key)

/-- How many services are published. -/
def size (provider : Provider) : Nat :=
  provider.services.size

/-- Calls the method that a request names. -/
def call (provider : Provider) (request : Request) : Except Fault Bytes := do
  let service ← provider.get request.serviceKey
  service.invoke request.method request.paramTypes request.parameters

/-- The response to a request. -/
def handle (provider : Provider) (request : Request) : Response :=
  match provider.call request with
  | .ok data => .ofData request.id (some data)
  | .error fault => .ofFailure request.id fault.message

/-- A response answers its request. -/
@[simp] theorem requestId_handle (provider : Provider) (request : Request) :
    (provider.handle request).requestId = request.id := by
  unfold handle
  split <;> rfl

end Provider

end RemoteCall
