import RemoteCall.Directory.Registration
import RemoteCall.Metrics
import RemoteCall.Service.Provider
import RemoteCall.Settings.Problem
import RemoteCall.Workers.Registry

/-!
# Servers

A server publishes services and registers its address for them. It runs once; when it stops, what it
registered for its address is deleted and its workers are shut down.
-/

namespace RemoteCall

open Directory

/-- A server that has an address. -/
structure Server where
  settings : Settings
  address : SocketAddress
  provider : Provider
  registration : Registration
  workers : Workers.Registry
  metrics : Metrics
  /-- Whether it runs or has run. -/
  hasRun : Bool

namespace Server

/-- The name of the pool of workers that handle requests. -/
def poolName : String := "service-handler"

/-- A server for valid settings. Port zero stands for a port that is free. -/
def bind (settings : Settings) (freePort : UInt16) : Except Fault Server := do
  settings.validate
  let some address := settings.server.listenAddress?
    | throw (.io "invalid socket address")
  let port := if address.port = 0 then freePort else address.port
  return ⟨settings, { address with port := port }, .empty, .ofRoot settings.directory.root, .empty,
    {}, false⟩

/-- Publishes a service and registers the address for it; returns the key. -/
def register {ε : Type} (server : Server) (store : Store ε) (service : Service)
    (group version : String) : Except Fault String × List ε × Server × Store ε :=
  let identity := Provider.identityOf service group version
  let server := { server with provider := server.provider.add service identity }
  let (result, events, registration, store) :=
    server.registration.register store identity.key server.address server.settings.server.weight
  (result.map fun _ => identity.key, events, { server with registration := registration }, store)

/-- Publishes services, each with a group and a version, until one cannot be registered. -/
def registerAll {ε : Type} (server : Server) (store : Store ε) :
    List (Service × String × String) → Except Fault Unit × List ε × Server × Store ε
  | [] => (.ok (), [], server, store)
  | (service, group, version) :: rest =>
    match server.register store service group version with
    | (.error fault, events, server, store) => (.error fault, events, server, store)
    | (.ok _, events, server, store) =>
      let (result, more, server, store) := registerAll server store rest
      (result, events ++ more, server, store)

/-- How many requests are handled at once; the settings may leave it to the machine. -/
def workerCount (server : Server) (machine : Nat) : Nat :=
  if server.settings.server.workers = 0 then machine else server.settings.server.workers.toNat

/-- Begins to run. -/
def start (server : Server) (machine : Nat) : Except Fault Unit × Server :=
  if server.hasRun then (.error (.transport "server is already running"), server)
  else
    let (_, workers) := server.workers.getOrCreate poolName (server.workerCount machine)
    (.ok (), { server with hasRun := true, workers := workers })

/-- Stops running while no request is handled. -/
def stop {ε : Type} (server : Server) (store : Store ε) (ticket : Workers.Ticket) :
    List Workers.Notice × List ε × Server × Store ε :=
  let (_, events, registration, store) := server.registration.clear store server.address
  let (notices, workers) := server.workers.shutdownAll ticket
  (notices, events, { server with registration := registration, workers := workers }, store)

end Server

end RemoteCall
