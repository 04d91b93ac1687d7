import RemoteCall.Client.Calls
import RemoteCall.Server.Basic

/-!
# Clusters

Some servers and a client over one directory. What the servers register and delete there reaches the
client's lookups.
-/

namespace RemoteCall

open Directory

/-- Servers and a client over one store. -/
structure Cluster where
  store : Store Event
  servers : List Server
  client : Client

namespace Cluster

/-- A service to be published, with its group and version. -/
abbrev Offer := Service × String × String

/-- Has the client learn of events. -/
def absorb (cluster : Cluster) (events : List Event) : Cluster :=
  { cluster with client := events.foldl Client.absorb cluster.client }

/-- No server, and a client with the standard settings. -/
def empty : Cluster := ⟨.empty, [], .idle {} .compact .none .standard⟩

/-- Has a new client take the client's place. -/
def renewClient (cluster : Cluster) (settings : Settings) : Except Fault Cluster :=
  (Client.ofSettings settings .standard).map fun client => { cluster with client := client }

/-- Registers an address of some services that no server of the cluster publishes. -/
def register (cluster : Cluster) (root : String) (address : SocketAddress) (weight : UInt32)
    (keys : List String) : Except Fault Cluster :=
  let (result, events, _, store) :=
    (Registration.ofRoot root).registerAll cluster.store address weight keys
  result.map fun _ => { cluster with store := store }.absorb events

/-- Adds a server that publishes some services and runs. -/
def addServer (cluster : Cluster) (settings : Settings) (freePort : UInt16) (machine : Nat)
    (offers : List Offer) : Except Fault Cluster := do
  let server ← Server.bind settings freePort
  let (result, events, server, store) := server.registerAll cluster.store offers
  result
  let (_, server) := server.start machine
  return { cluster with servers := cluster.servers ++ [server], store := store }.absorb events

/-- Lets the client do something that may send. -/
def withClient (cluster : Cluster) (action : Client → Store Event → Client.Sending) :
    Except Fault RemoteCall.Ticket × Cluster :=
  let sending := action cluster.client cluster.store
  (sending.result, { cluster with client := sending.client, store := sending.store })

/-- Stops a server in which no request is handled. -/
def stopServer (cluster : Cluster) (server : Server) : Server × Cluster :=
  let (_, events, server, store) := server.stop cluster.store 0
  (server, { cluster with store := store }.absorb events)

/-- Stops some servers, one after another. -/
def stopThese (cluster : Cluster) : List Server → List Server × Cluster
  | [] => ([], cluster)
  | server :: rest =>
    let (server, cluster) := cluster.stopServer server
    let (servers, cluster) := cluster.stopThese rest
    (server :: servers, cluster)

/-- Stops all servers. -/
def stop (cluster : Cluster) : Cluster :=
  let (servers, cluster) := cluster.stopThese cluster.servers
  { cluster with servers := servers }

end Cluster

end RemoteCall
