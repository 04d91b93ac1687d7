import RemoteCall.Balance.Balancer
import RemoteCall.Directory.Cache
import RemoteCall.Extension.Loader
import RemoteCall.Md5
import RemoteCall.Message

/-!
# Discovery

The address of a call is found in two steps: the cached list of the service, then a strategy that
selects from it. Strategies that look at weights read them through the cache, in the order of the list;
a list with fewer than two addresses needs none.
-/

namespace RemoteCall.Directory

open Balance Extension

/-- What a process knows for choosing addresses. -/
structure Discovery where
  cache : Cache
  strategies : Loader Strategy
  balancer : Balancer
  active : ActiveCalls

namespace Discovery

/-- Nothing was looked up under a root. -/
def ofRoot (root : String) (strategies : Loader Strategy) : Discovery :=
  ⟨.ofRoot root, strategies, .empty, .empty⟩

/-- The discovery after an event. -/
def absorb (discovery : Discovery) (event : Event) : Discovery :=
  { discovery with cache := discovery.cache.absorb event }

/-- The addresses of a list with what the strategy looks at. -/
def members (discovery : Discovery) (store : Store Event) (strategy : Strategy) (key : String)
    (list : AddressList) : List Member × Discovery :=
  let (weights, cache) :=
    if strategy.weighs && 2 ≤ list.addresses.length then
      discovery.cache.weigh store key list.addresses
    else (list.addresses.map fun _ => 0, discovery.cache)
  ((list.addresses.zip weights).map fun (address, weight) =>
      ⟨address, weight, discovery.active.count address⟩,
    { discovery with cache := cache })

/-- Selects from a list. -/
def select (discovery : Discovery) (store : Store Event) (strategy : Strategy) (key : String)
    (list : AddressList) : Choice (Option String) × Discovery :=
  let (members, discovery) := discovery.members store strategy key list
  let (choice, balancer) := discovery.balancer.choose Md5.window strategy key list members
  (choice, { discovery with balancer := balancer })

/-- The addresses that a selection from a list can give. -/
def candidates (discovery : Discovery) (store : Store Event) (strategy : Strategy) (key : String)
    (list : AddressList) : List String :=
  let (members, discovery) := discovery.members store strategy key list
  discovery.balancer.candidates Md5.window strategy key list members

/-- The list of a service and the strategy with a name; the list comes first. -/
def prepare (discovery : Discovery) (store : Store Event) (strategyName key : String) :
    Except Fault (AddressList × Strategy) × Discovery × Store Event :=
  let (list, cache, store) := discovery.cache.lookup store key
  let discovery := { discovery with cache := cache }
  match list with
  | .error fault => (.error fault, discovery, store)
  | .ok list =>
    let (found, strategies) := discovery.strategies.get strategyName
    (found.map fun found => (list, found.value),
      { discovery with strategies := strategies }, store)

/-- The address that a selection means. -/
def resolve (key : String) : Option String → Except Fault SocketAddress
  | none => .error (.noProvider key)
  | some text =>
    match SocketAddress.ofText? text with
    | some address => .ok address
    | none => .error (.badAddress text)

/-- The address to which a call of a service goes; `numbers` are for the draws. -/
def find (discovery : Discovery) (store : Store Event) (numbers : List Nat)
    (strategyName key : String) : Except Fault SocketAddress × Discovery × Store Event :=
  match discovery.prepare store strategyName key with
  | (.error fault, discovery, store) => (.error fault, discovery, store)
  | (.ok (list, strategy), discovery, store) =>
    let (choice, discovery) := discovery.select store strategy key list
    (resolve key (choice.resolve numbers), discovery, store)

end Discovery

end RemoteCall.Directory
