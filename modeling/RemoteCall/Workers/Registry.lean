import RemoteCall.Dictionary
import RemoteCall.Workers.Pool

/-!
# Worker pools by name

A name stands for one pool until that pool is shut down; asking for the name then makes a new pool.
Pools are numbered in the order in which they were made, and a replaced pool goes on until its tasks
are done.
-/

namespace RemoteCall.Workers

/-- Pools by name. -/
structure Registry where
  /-- All pools that were ever made. -/
  pools : Array Pool
  /-- The number of the pool that a name stands for. -/
  current : Dictionary Nat

namespace Registry

/-- No pool was made. -/
def empty : Registry := ⟨#[], .empty⟩

/-- The pool with a number. -/
def pool? (registry : Registry) (number : Nat) : Option Pool :=
  registry.pools[number]?

/-- The pool that a name stands for. -/
def named? (registry : Registry) (name : String) : Option Pool :=
  (registry.current.get? name).bind registry.pool?

/-- Makes a pool for a name. -/
def create (registry : Registry) (name : String) (size : Nat) : Nat × Registry :=
  let number := registry.pools.size
  (number, ⟨registry.pools.push (.ofSize name size), registry.current.insert name number⟩)

/-- The pool of a name, which is made where there is none or where it is shut down. -/
def getOrCreate (registry : Registry) (name : String) (size : Nat) : Nat × Registry :=
  match registry.current.get? name with
  | none => registry.create name size
  | some number =>
    match registry.pool? number with
    | some pool => if pool.isShutDown then registry.create name size else (number, registry)
    | none => registry.create name size

/-- Lets a pool make a step. -/
def step (registry : Registry) (number : Nat) (action : Pool → List Notice × Pool) :
    List Notice × Registry :=
  match registry.pool? number with
  | some pool =>
    let (notices, pool) := action pool
    (notices, { registry with pools := registry.pools.setIfInBounds number pool })
  | none => ([], registry)

/-- Shuts a pool down in which nothing happens until the time for this is over. -/
def shutdown (registry : Registry) (number : Nat) (ticket : Ticket) : List Notice × Registry :=
  let (begun, registry) := registry.step number (·.beginShutdown ticket)
  let (ended, registry) := registry.step number (·.giveUp ticket)
  (begun ++ ended, registry)

/-- Shuts all pools down that names stand for, in which nothing happens until the time for this is
over. -/
def shutdownAll (registry : Registry) (ticket : Ticket) : List Notice × Registry :=
  registry.current.values.foldl (fun (notices, registry) number =>
    let (more, registry) := registry.shutdown number ticket
    (notices ++ more, registry)) ([], registry)

/-- How many names stand for a pool. -/
def size (registry : Registry) : Nat :=
  registry.current.size

end Registry

end RemoteCall.Workers
