import RemoteCall.Directory.Store
import RemoteCall.Net.SocketAddress

/-!
# Registration

A server registers its address for a service by a node `root/key/address` with its weight as data. The
store keeps such nodes for ever, so the server remembers the paths that it registered and deletes them
in the end.
-/

namespace RemoteCall.Directory

/-- The paths that a server registered. -/
structure Registration where
  root : String
  paths : Dictionary Unit

namespace Registration

variable {ε : Type}

/-- Nothing is registered. -/
def ofRoot (root : String) : Registration :=
  ⟨Path.withoutTail root, .empty⟩

/-- The path of an address of a service. -/
def nodePath (registration : Registration) (key : String) (address : SocketAddress) : String :=
  registration.root ++ "/" ++ key ++ "/" ++ address.text

/-- Sees to it that there is a node at a path; one that is there, or that was registered before, is
left as it is. -/
def ensureNode (registration : Registration) (store : Store ε) (path : String) (weight : Nat) :
    Except Fault Unit × List ε × Store ε :=
  if registration.paths.contains path then (.ok (), [], store)
  else
    match store.contains path with
    | .error fault => (.error fault, [], store)
    | .ok true => (.ok (), [], store)
    | .ok false => store.create path (Bytes.ofText (toString weight))

/-- Registers an address of a service. -/
def register (registration : Registration) (store : Store ε) (key : String)
    (address : SocketAddress) (weight : UInt32) :
    Except Fault Unit × List ε × Registration × Store ε :=
  let path := registration.nodePath key address
  match registration.ensureNode store path weight.toNat with
  | (.ok (), events, store) =>
    (.ok (), events, { registration with paths := registration.paths.insert path () }, store)
  | (.error fault, events, store) => (.error fault, events, registration, store)

/-- Registers an address of some services, until one cannot be registered. -/
def registerAll (registration : Registration) (store : Store ε) (address : SocketAddress)
    (weight : UInt32) : List String → Except Fault Unit × List ε × Registration × Store ε
  | [] => (.ok (), [], registration, store)
  | key :: rest =>
    match registration.register store key address weight with
    | (.error fault, events, registration, store) => (.error fault, events, registration, store)
    | (.ok (), events, registration, store) =>
      let (result, more, registration, store) :=
        registerAll registration store address weight rest
      (result, events ++ more, registration, store)

/-- The registered paths in increasing order. -/
def registered (registration : Registration) : List String :=
  registration.paths.keys

/-- Whether a path is that of an address. -/
def isOf (address : SocketAddress) (path : String) : Bool :=
  ("/" ++ address.text).toList.isSuffixOf path.toList

/-- Deletes the nodes at some paths. One that cannot be deleted stays registered. Returns how many
were deleted. -/
def deleteAll : List String → Registration → Store ε → Nat × List ε × Registration × Store ε
  | [], registration, store => (0, [], registration, store)
  | path :: rest, registration, store =>
    match store.delete path with
    | (.ok (), events, store) =>
      let (count, more, registration, store) :=
        deleteAll rest { registration with paths := registration.paths.erase path } store
      (count + 1, events ++ more, registration, store)
    | (.error _, events, store) =>
      let (count, more, registration, store) := deleteAll rest registration store
      (count, events ++ more, registration, store)

/-- Deletes the nodes registered for an address. -/
def clear (registration : Registration) (store : Store ε) (address : SocketAddress) :
    Nat × List ε × Registration × Store ε :=
  deleteAll (registration.registered.filter (isOf address)) registration store

end Registration

end RemoteCall.Directory
