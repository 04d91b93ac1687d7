import RemoteCall.Fault

/-!
# Worker pools

A pool runs at most `size` tasks at once, each in a slot. Who needs slots waits in a line
(`request`), and slots go to the first of the line only (`serve`); until that happens they lie free.
To shut a pool down is to let no task in any more (`announce`), to wait for all slots in the same
line, to give them back when they are there (`release`) or those that are there when the time for
this is over (`withdraw`), and to turn away whoever still waits, for good (`close`).

These are single steps, between which others may come. `submit`, `finish`, `beginShutdown` and
`giveUp` are what they come to when none does. A step returns what it made happen (`Notice`).
-/

namespace RemoteCall.Workers

/-- Identifies a task or a request to shut down. -/
abbrev Ticket := Nat

/-- Who waits for slots. -/
inductive Waiter where
  /-- A task needs one slot. -/
  | task (ticket : Ticket)
  /-- A shutdown needs all slots and lacks some of them. -/
  | drain (ticket : Ticket) (missing : Nat)
  deriving DecidableEq, Repr

/-- What a step makes happen. -/
inductive Notice where
  /-- A task starts. -/
  | started (ticket : Ticket)
  /-- A task is turned away. -/
  | refused (ticket : Ticket)
  /-- A shutdown is over; tells whether all tasks had finished. -/
  | shutDown (ticket : Ticket) (drained : Bool)
  deriving DecidableEq, Repr

/-- How a task ended. -/
inductive Ending where
  | finished
  | brokeDown (report : String)
  deriving DecidableEq, Repr

/-- What the caller of a task that ended is told instead of its result. -/
def Ending.fault? : Ending → Option Fault
  | .finished => none
  | .brokeDown report => some (.invocation ("worker task failed: " ++ report))

namespace Waiter

/-- How a waiter is turned away when the pool is closed. -/
def dismissal : Waiter → Notice
  | .task ticket => .refused ticket
  | .drain ticket _ => .shutDown ticket false

/-- How many slots a waiter already has, if a shutdown needs some number of them. -/
def held (share : Nat) : Waiter → Nat
  | .task _ => 0
  | .drain _ missing => share - missing

/-- Whether a waiter is the shutdown of a ticket. -/
def isDrain (ticket : Ticket) : Waiter → Bool
  | .task _ => false
  | .drain t _ => t = ticket

end Waiter

/-- A pool of slots for tasks. -/
structure Pool where
  name : String
  size : Nat
  /-- How many slots nobody has. -/
  free : Nat
  running : List Ticket
  /-- Who waits for slots, the first of the line first. -/
  waiting : List Waiter
  /-- The shutdowns that have the slots they waited for. -/
  holding : List Ticket
  /-- Whether a shutdown has begun, so that no task is taken any more. -/
  isShutDown : Bool
  /-- Whether a shutdown is over, so that no task starts any more. -/
  isClosed : Bool
  deriving DecidableEq, Repr

namespace Pool

/-- A new pool; it has at least one slot. -/
def ofSize (name : String) (size : Nat) : Pool :=
  ⟨name, max size 1, max size 1, [], [], [], false, false⟩

/-- How many slots are taken. -/
def inFlight (pool : Pool) : Nat :=
  pool.size - pool.free

/-- The fault of a task that is turned away. -/
def refusal (pool : Pool) : Fault :=
  .transport ("worker pool " ++ pool.name ++ " is shut down")

/-- How many slots a shutdown waits for, which are all unless these are too many to be asked for at
once. -/
def share (pool : Pool) : Nat :=
  min pool.size (2 ^ 32 - 1)

/-! ## Steps -/

/-- Somebody joins the line, or is turned away where the pool is closed. -/
def request (pool : Pool) (waiter : Waiter) : List Notice × Pool :=
  if pool.isClosed then ([waiter.dismissal], pool)
  else ([], { pool with waiting := pool.waiting ++ [waiter] })

/-- The first of the line takes what it needs of the free slots, and leaves the line when it has all
of that. -/
def serve (pool : Pool) : List Notice × Pool :=
  match pool.waiting with
  | [] => ([], pool)
  | .task ticket :: rest =>
    if pool.free = 0 then ([], pool)
    else
      ([.started ticket],
        { pool with
          free := pool.free - 1, running := pool.running ++ [ticket], waiting := rest })
  | .drain ticket missing :: rest =>
    if pool.free < missing then
      ([], { pool with free := 0, waiting := .drain ticket (missing - pool.free) :: rest })
    else
      ([], { pool with
        free := pool.free - missing, waiting := rest, holding := pool.holding ++ [ticket] })

/-- A task gives its slot back, however it ended. -/
def giveBack (pool : Pool) (ticket : Ticket) : Pool :=
  if ticket ∈ pool.running then
    { pool with free := pool.free + 1, running := pool.running.erase ticket }
  else pool

/-- From now on no task is taken. -/
def announce (pool : Pool) : Pool :=
  { pool with isShutDown := true }

/-- A shutdown leaves the line and gives back what it has. -/
def withdraw (pool : Pool) (ticket : Ticket) : Pool :=
  let (own, others) := pool.waiting.partition (Waiter.isDrain ticket)
  { pool with free := pool.free + (own.map (Waiter.held pool.share)).sum, waiting := others }

/-- A shutdown that has the slots it waited for gives them back. -/
def release (pool : Pool) (ticket : Ticket) : Pool :=
  if ticket ∈ pool.holding then
    { pool with free := pool.free + pool.share, holding := pool.holding.erase ticket }
  else pool

/-- Closes the pool: those who wait are turned away and give back what they have. -/
def close (pool : Pool) : List Notice × Pool :=
  (pool.waiting.map Waiter.dismissal,
    { pool with
      free := pool.free + (pool.waiting.map (Waiter.held pool.share)).sum
      waiting := []
      isClosed := true })

/-! ## Steps without others in between -/

/-- A shutdown that has the slots it waited for comes to its end. -/
def leave (pool : Pool) : List Notice × Pool :=
  match pool.holding with
  | [] => ([], pool)
  | ticket :: _ =>
    let (dismissals, pool) := (pool.release ticket).close
    (.shutDown ticket true :: dismissals, pool)

/-- The first of the line is served, which may bring a shutdown to its end. -/
def round (pool : Pool) : List Notice × Pool :=
  let (started, pool) := pool.serve
  let (ended, pool) := pool.leave
  (started ++ ended, pool)

/-- Some rounds, one after another. -/
def rounds : Nat → Pool → List Notice × Pool
  | 0, pool => ([], pool)
  | n + 1, pool =>
    let (notices, pool) := pool.round
    let (more, pool) := rounds n pool
    (notices ++ more, pool)

/-- Slots go to those who wait as far as they suffice, for which it takes at most one round each. -/
def settle (pool : Pool) : List Notice × Pool :=
  rounds pool.waiting.length pool

/-- Somebody joins the line, and slots go to those who wait. -/
def join (pool : Pool) (waiter : Waiter) : List Notice × Pool :=
  let (refused, pool) := pool.request waiter
  let (notices, pool) := pool.settle
  (refused ++ notices, pool)

/-- Takes a task. -/
def submit (pool : Pool) (ticket : Ticket) : List Notice × Pool :=
  if pool.isShutDown then ([.refused ticket], pool) else pool.join (.task ticket)

/-- Ends a task. -/
def finish (pool : Pool) (ticket : Ticket) : List Notice × Pool :=
  (pool.giveBack ticket).settle

/-- Begins to shut down. -/
def beginShutdown (pool : Pool) (ticket : Ticket) : List Notice × Pool :=
  pool.announce.join (.drain ticket pool.share)

/-- Ends a shutdown whose time is over. -/
def giveUp (pool : Pool) (ticket : Ticket) : List Notice × Pool :=
  if pool.waiting.any (Waiter.isDrain ticket) then
    let (dismissals, pool) := (pool.withdraw ticket).close
    (.shutDown ticket false :: dismissals, pool)
  else ([], pool)

end Pool

end RemoteCall.Workers
