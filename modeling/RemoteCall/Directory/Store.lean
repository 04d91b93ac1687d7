import RemoteCall.Directory.Tree

/-!
# The store

The store is a tree that can be watched and that may be out of reach. Whoever watches a path is called
with every change of its children. A watcher may itself use the store (`Reaction`), and it may report
events; a report is a value of the type `ε`.

Changes wait in a queue. An operation queues its changes and then delivers whatever is in the queue, the
oldest change first, unless changes are being delivered already: so an operation of a watcher only
queues, and changes are delivered in the order in which they were made.

Watchers that answer every change with another one keep an operation going for ever: `deliver` repeats
without a bound.
-/

namespace RemoteCall.Directory

/-- What a watcher does when it is called. -/
inductive Reaction (ε : Type) where
  /-- It is done. -/
  | done
  /-- It reports an event. -/
  | report (event : ε) (next : Reaction ε)
  /-- It looks at the tree. -/
  | look (next : Tree → Reaction ε)
  /-- It creates a node. -/
  | create (path : String) (data : Bytes) (next : Except Fault Unit → Reaction ε)
  /-- It deletes a node. -/
  | delete (path : String) (next : Except Fault Unit → Reaction ε)
  /-- It has another watcher called with changes. -/
  | watch (path : String) (watcher : Change → Reaction ε) (next : Except Fault Unit → Reaction ε)

/-- Is called with changes of the children of a path. -/
abbrev Watcher (ε : Type) := Change → Reaction ε

/-- A tree with those who watch it. -/
structure Store (ε : Type) where
  tree : Tree
  /-- The watchers of each path, in the order in which they came. -/
  watchers : Dictionary (List (Watcher ε))
  /-- The changes that are not delivered yet, the oldest first. -/
  queue : List Change
  /-- Whether changes are being delivered. -/
  isDelivering : Bool
  /-- Whether the store is within reach. -/
  isAvailable : Bool

namespace Store

variable {ε : Type}

/-- No node and no watcher. -/
def empty : Store ε := ⟨.empty, .empty, [], false, true⟩

instance : Inhabited (Store ε) := ⟨empty⟩

/-- The fault of a store that is out of reach. -/
def unavailable : Fault :=
  .directory "Coordination store is unavailable"

/-- Fails where the store is out of reach. -/
def reach (store : Store ε) : Except Fault Tree :=
  if store.isAvailable then .ok store.tree else .error unavailable

/-- Fails where a text is no path. -/
def checkPath (path : String) : Except Fault Unit :=
  if Path.isValid path then .ok () else .error (.directory ("Invalid path: " ++ path))

/-! ## Reading -/

/-- Whether there is a node at a path. -/
def contains (store : Store ε) (path : String) : Except Fault Bool :=
  store.reach.map fun tree => tree.contains path

/-- The data of a node. -/
def data (store : Store ε) (path : String) : Except Fault Bytes :=
  store.reach.bind fun tree => tree.data path

/-- The names of the nodes directly below a path. -/
def children (store : Store ε) (path : String) : Except Fault (List String) :=
  store.reach.map fun tree => tree.children path

/-! ## Queueing changes -/

/-- Takes over a changed tree and queues the changes. -/
def accept (store : Store ε) : Except Fault (Tree × List Change) → Except Fault Unit × Store ε
  | .ok (tree, changes) => (.ok (), { store with tree := tree, queue := store.queue ++ changes })
  | .error fault => (.error fault, store)

/-- Creates a node and queues the changes. -/
def queueCreate (store : Store ε) (path : String) (data : Bytes) : Except Fault Unit × Store ε :=
  store.accept do
    checkPath path
    (← store.reach).create path data

/-- Deletes a node and queues the change. -/
def queueDelete (store : Store ε) (path : String) : Except Fault Unit × Store ε :=
  store.accept do (← store.reach).delete path

/-- The watchers of a path. -/
def watchersOf (store : Store ε) (path : String) : List (Watcher ε) :=
  (store.watchers.get? path).getD []

/-- Has a watcher called with the changes of a path. -/
def watch (store : Store ε) (path : String) (watcher : Watcher ε) :
    Except Fault Unit × Store ε :=
  match checkPath path with
  | .error fault => (.error fault, store)
  | .ok () =>
    if store.isAvailable then
      let watchers := store.watchersOf path ++ [watcher]
      (.ok (), { store with watchers := store.watchers.insert path watchers })
    else (.error unavailable, store)

/-! ## Delivery -/

/-- Lets a watcher react. Its operations only queue, because it is called while changes are being
delivered. -/
def react : Reaction ε → Store ε → List ε × Store ε
  | .done, store => ([], store)
  | .report event next, store =>
    let (events, store) := react next store
    (event :: events, store)
  | .look next, store => react (next store.tree) store
  | .create path data next, store =>
    let (result, store) := store.queueCreate path data
    react (next result) store
  | .delete path next, store =>
    let (result, store) := store.queueDelete path
    react (next result) store
  | .watch path watcher next, store =>
    let (result, store) := store.watch path watcher
    react (next result) store

/-- Calls watchers with a change. -/
def call (change : Change) : List (Watcher ε) → Store ε → List ε × Store ε
  | [], store => ([], store)
  | watcher :: rest, store =>
    let (events, store) := react (watcher change) store
    let (more, store) := call change rest store
    (events ++ more, store)

/-- Calls the watchers of the oldest change; what they change meanwhile goes behind the others. -/
def callOldest (store : Store ε) (change : Change) (others : List Change) : List ε × Store ε :=
  call change (store.watchersOf change.path) { store with queue := others, isDelivering := true }

/-- Delivers the oldest change and goes on, or comes to an end where none is queued. -/
def deliverNext (state : List ε × Store ε) : (List ε × Store ε) ⊕ (List ε × Store ε) :=
  let (events, store) := state
  match store.queue with
  | [] => .inr (events, { store with isDelivering := false })
  | change :: others =>
    let (more, store) := store.callOldest change others
    .inl (events ++ more, store)

/-- Delivers changes until none is queued. -/
def deliver (store : Store ε) : List ε × Store ε :=
  Id.run (repeatM (fun state => pure (deliverNext state)) ([], store))

/-- Has the changes in the queue delivered, unless that is under way. -/
def notify (store : Store ε) : List ε × Store ε :=
  if store.isDelivering then ([], store) else store.deliver

/-- Delivers the changes of an operation that was successful. -/
def settle (outcome : Except Fault Unit × Store ε) : Except Fault Unit × List ε × Store ε :=
  match outcome with
  | (.ok (), store) => (.ok (), store.notify)
  | (.error fault, store) => (.error fault, [], store)

/-- Creates a node. -/
def create (store : Store ε) (path : String) (data : Bytes) :
    Except Fault Unit × List ε × Store ε :=
  settle (store.queueCreate path data)

/-- Deletes a node. -/
def delete (store : Store ε) (path : String) : Except Fault Unit × List ε × Store ε :=
  settle (store.queueDelete path)

end Store

end RemoteCall.Directory
