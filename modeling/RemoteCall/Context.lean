import RemoteCall.Directory.Discovery
import RemoteCall.Directory.Registration
import RemoteCall.Extension.Catalogue
import RemoteCall.Settings.Problem
import RemoteCall.Text.Quoted
import RemoteCall.Workers.Registry

/-!
# Contexts

What the parts of a process share: its settings, the directory's store, what it has looked up and
registered there, the extensions, and its worker pools. Changes of the store reach the lookups at once;
what other watchers report is kept until somebody takes it.
-/

namespace RemoteCall

open Directory Extension

/-- What the parts of a process share. -/
structure Context where
  settings : Settings
  store : Store Event
  discovery : Discovery
  registration : Registration
  catalogue : Catalogue
  workers : Workers.Registry
  /-- What watchers other than the cache reported, the oldest first. -/
  reports : List Event

namespace Context

/-- A context over an empty store, whatever the settings say. -/
def «over» (settings : Settings) : Context :=
  let root := settings.directory.root
  ⟨settings, .empty, .ofRoot root Catalogue.standard.balancers, .ofRoot root, .standard, .empty, []⟩

/-- A context over an empty store, for settings that are valid. -/
def ofSettings (settings : Settings) : Except Fault Context :=
  settings.validate.map fun _ => «over» settings

/-- Whether an event is the report of a watcher other than the cache. -/
def isReport : Event → Bool
  | .seen .. => true
  | .changed .. => false

/-- The context after events. -/
def absorb (context : Context) (events : List Event) : Context :=
  { context with
    discovery := events.foldl Discovery.absorb context.discovery
    reports := context.reports ++ events.filter isReport }

/-- Takes what was reported. -/
def takeReports (context : Context) : List Event × Context :=
  (context.reports, { context with reports := [] })

/-! ## The store -/

/-- Creates a node of the store. -/
def create (context : Context) (path : String) (data : Bytes) : Except Fault Unit × Context :=
  let (result, events, store) := context.store.create path data
  (result, { context with store := store }.absorb events)

/-- Deletes a node of the store. -/
def delete (context : Context) (path : String) : Except Fault Unit × Context :=
  let (result, events, store) := context.store.delete path
  (result, { context with store := store }.absorb events)

/-- Has a watcher called with changes. -/
def watch (context : Context) (path : String) (watcher : Watcher Event) :
    Except Fault Unit × Context :=
  let (result, store) := context.store.watch path watcher
  (result, { context with store := store })

/-- Puts the store within or out of reach. -/
def setAvailable (context : Context) (isAvailable : Bool) : Context :=
  { context with store := { context.store with isAvailable := isAvailable } }

/-! ## Lookups -/

/-- Looks up the addresses of a service. -/
def lookup (context : Context) (key : String) : Except Fault Balance.AddressList × Context :=
  let (result, cache, store) := context.discovery.cache.lookup context.store key
  (result, { context with
    store := store, discovery := { context.discovery with cache := cache } })

/-- The weight of an address of a service. -/
def weight (context : Context) (key address : String) : Int32 × Context :=
  let (weight, cache) := context.discovery.cache.weight context.store key address
  (weight, { context with discovery := { context.discovery with cache := cache } })

/-- The list of a service and the strategy with a name. -/
def prepare (context : Context) (strategyName key : String) :
    Except Fault (Balance.AddressList × Balance.Strategy) × Context :=
  let (result, discovery, store) := context.discovery.prepare context.store strategyName key
  (result, { context with discovery := discovery, store := store })

/-- Selects from the list of a service. -/
def select (context : Context) (strategy : Balance.Strategy) (key : String)
    (list : Balance.AddressList) : Balance.Choice (Option String) × Context :=
  let (choice, discovery) := context.discovery.select context.store strategy key list
  (choice, { context with discovery := discovery })

/-- The address to which a call of a service goes; `numbers` are for the draws. -/
def find (context : Context) (numbers : List Nat) (strategyName key : String) :
    Except Fault SocketAddress × Context :=
  let (result, discovery, store) :=
    context.discovery.find context.store numbers strategyName key
  (result, { context with discovery := discovery, store := store })

/-- A call to an address begins. -/
def startCall (context : Context) (address : String) : Context :=
  { context with discovery :=
      { context.discovery with active := context.discovery.active.start address } }

/-- A call to an address ends. -/
def finishCall (context : Context) (address : String) : Context :=
  { context with discovery :=
      { context.discovery with active := context.discovery.active.finish address } }

/-! ## Registration and the end -/

/-- Registers an address of a service. -/
def register (context : Context) (key : String) (address : SocketAddress) (weight : UInt32) :
    Except Fault Unit × Context :=
  let (result, events, registration, store) :=
    context.registration.register context.store key address weight
  (result, { context with registration := registration, store := store }.absorb events)

/-- Deletes what is registered for an address; returns how many nodes that were. -/
def clear (context : Context) (address : SocketAddress) : Nat × Context :=
  let (count, events, registration, store) := context.registration.clear context.store address
  (count, { context with registration := registration, store := store }.absorb events)

/-- The pool of workers with a name, which is made if there is none. -/
def pool (context : Context) (name : String) (size : Nat) : Nat × Context :=
  let (number, workers) := context.workers.getOrCreate name size
  (number, { context with workers := workers })

/-- Deletes what is registered for an address, if there is one, and shuts the worker pools down, in
which nothing happens until the time for this is over. -/
def shutdown (context : Context) (address : Option SocketAddress) (ticket : Workers.Ticket) :
    List Workers.Notice × Context :=
  let context :=
    match address with
    | some address => (context.clear address).2
    | none => context
  let (notices, workers) := context.workers.shutdownAll ticket
  (notices, { context with workers := workers })

/-- A context as it is shown in diagnostics. -/
def text (context : Context) : String :=
  "RpcContext \x7b root: " ++ Text.quoted context.discovery.cache.root ++ ", worker_pools: "
    ++ toString context.workers.size ++ " \x7d"

end Context

end RemoteCall
