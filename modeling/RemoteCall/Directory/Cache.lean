import RemoteCall.Balance.Basic
import RemoteCall.Decimal.Integer
import RemoteCall.Directory.Store
import RemoteCall.Text.Category
import RemoteCall.Text.Utf8

/-!
# Cached address lists

The nodes below `root/key` are the addresses of a service, each with its weight as data. A cache reads
the list of a key once and has itself told of every change from then on; each list that it takes in
gets a new generation. Weights are read when somebody asks for them and kept, by address, until any
list changes.
-/

namespace RemoteCall.Directory

open Balance

/-- What watchers of a directory report. -/
inductive Event where
  /-- The list of a key changed. -/
  | changed (key : String) (addresses : List String)
  /-- Somebody who gave a tag saw a change. -/
  | seen (tag : String) (change : Change)
  deriving DecidableEq, Repr

/-- Lists and weights read from a directory. -/
structure Cache where
  root : String
  lists : Dictionary AddressList
  /-- Weights by address. -/
  weights : Dictionary Int32
  /-- The keys whose changes the cache is told of. -/
  watched : Dictionary Unit
  /-- The generation of the next list. -/
  nextGeneration : Nat

namespace Cache

/-- Nothing was read. -/
def ofRoot (root : String) : Cache :=
  ⟨Path.withoutTail root, .empty, .empty, .empty, 1⟩

/-- The path of a service. -/
def servicePath (cache : Cache) (key : String) : String :=
  cache.root ++ "/" ++ key

/-- Takes in the list of a key under a new generation. -/
def take (cache : Cache) (key : String) (addresses : List String) : AddressList × Cache :=
  let list := ⟨cache.nextGeneration, addresses⟩
  (list, { cache with
    lists := cache.lists.insert key list, nextGeneration := cache.nextGeneration + 1 })

/-- Takes in a changed list, which voids all weights. -/
def change (cache : Cache) (key : String) (addresses : List String) : Cache :=
  { (cache.take key addresses).2 with weights := .empty }

/-- The cache after an event. -/
def absorb (cache : Cache) : Event → Cache
  | .changed key addresses => cache.change key addresses
  | .seen .. => cache

/-- The watcher that tells the cache of changes of a key. -/
def watcher (key : String) : Watcher Event :=
  fun change => .report (.changed key change.children) .done

/-- A list, unless it is empty. -/
def nonEmpty (key : String) (list : AddressList) : Except Fault AddressList :=
  if list.addresses.isEmpty then .error (.noProvider key) else .ok list

/-- Sees to it that the cache is told of changes of a key. -/
def ensureWatch (cache : Cache) (store : Store Event) (key : String) :
    Except Fault Unit × Cache × Store Event :=
  if cache.watched.contains key then (.ok (), cache, store)
  else
    match store.watch (cache.servicePath key) (watcher key) with
    | (.ok (), store) => (.ok (), { cache with watched := cache.watched.insert key () }, store)
    | (.error fault, store) => (.error fault, cache, store)

/-- The addresses of a service. -/
def lookup (cache : Cache) (store : Store Event) (key : String) :
    Except Fault AddressList × Cache × Store Event :=
  match cache.lists.get? key with
  | some list => (nonEmpty key list, cache, store)
  | none =>
    match cache.ensureWatch store key with
    | (.error fault, cache, store) => (.error fault, cache, store)
    | (.ok (), cache, store) =>
      match store.children (cache.servicePath key) with
      | .error fault => (.error fault, cache, store)
      | .ok addresses =>
        let (list, cache) := cache.take key addresses
        (nonEmpty key list, cache, store)

/-- The weight that stands at an address in the store. -/
def readWeight (cache : Cache) (store : Store Event) (key address : String) : Option Int32 := do
  let data ← (store.data (cache.servicePath key ++ "/" ++ address)).toOption
  let text ← (Utf8.decode data).toOption
  let weight ← Decimal.int? 32 (Text.trim text)
  return Int32.ofInt weight

/-- The weight of an address that a cached list does not have or that has none in the store. -/
def noWeight : Int32 := -1

/-- The weight of an address of a service. -/
def weight (cache : Cache) (store : Store Event) (key address : String) : Int32 × Cache :=
  if (cache.lists.get? key).any (·.contains address) then
    match cache.weights.get? address with
    | some weight => (weight, cache)
    | none =>
      match cache.readWeight store key address with
      | some weight => (weight, { cache with weights := cache.weights.insert address weight })
      | none => (noWeight, cache)
  else (noWeight, cache)

/-- The weights of some addresses of a service, read one after another. -/
def weigh (cache : Cache) (store : Store Event) (key : String) :
    List String → List Int32 × Cache
  | [] => ([], cache)
  | address :: rest =>
    let (weight, cache) := cache.weight store key address
    let (weights, cache) := cache.weigh store key rest
    (weight :: weights, cache)

end Cache

end RemoteCall.Directory
