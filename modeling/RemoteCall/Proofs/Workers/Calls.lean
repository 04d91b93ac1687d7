import Mathlib.Data.List.Nodup
import RemoteCall.Proofs.Workers.Slots

/-! # What becomes of the calls of a pool

    A call of a pool takes several steps, and other calls may come in between
    (`Act`): a task sees that the pool is not shut down, later asks for its
    slot, starts when it is served, and ends; a shutdown is announced, later
    asks for all slots, gets them or gives up, gives them back, and only then
    closes the pool.  A `SharedPool` is a pool with its calls on their way and the
    record of those before.

    To start is to get the slot, and a slot that is served is taken in the same
    act.  What may pass after that is left out: the moment until a task that has
    its slot takes notice, and the time that it spends in the queue of the
    threads for blocking work before its body runs.  The task holds its slot all
    the while, so that it counts as running.

    Every task is at one place at a time (`Accounts`), and so is every shutdown
    (`Shutdowns`); one act keeps this, and hence so does a run. -/

namespace RemoteCall.Workers

/-- The task that waits. -/
@[simp] def Waiter.task? : Waiter → Option Ticket
  | .task ticket => some ticket
  | .drain .. => none

/-- The shutdown that waits. -/
@[simp] def Waiter.shutdown? : Waiter → Option Ticket
  | .task _ => none
  | .drain ticket _ => some ticket

/-- The task that starts. -/
@[simp] def Notice.started? : Notice → Option Ticket
  | .started ticket => some ticket
  | .refused _ => none
  | .shutDown .. => none

/-- The task that is turned away. -/
@[simp] def Notice.refused? : Notice → Option Ticket
  | .started _ => none
  | .refused ticket => some ticket
  | .shutDown .. => none

/-- The shutdown that no longer waits, and whether it got all slots. -/
@[simp] def Notice.shutDown? : Notice → Option (Ticket × Bool)
  | .started _ => none
  | .refused _ => none
  | .shutDown ticket drained => some (ticket, drained)

/-- The tasks that wait, in their order. -/
def Pool.tasks (pool : Pool) : List Ticket :=
  pool.waiting.filterMap Waiter.task?

/-- The shutdowns that wait, in their order. -/
def Pool.shutdowns (pool : Pool) : List Ticket :=
  pool.waiting.filterMap Waiter.shutdown?

/-- Tasks wait no matter whether a shutdown does. -/
theorem Pool.tasks_withdraw (pool : Pool) (s : Ticket) : (pool.withdraw s).tasks = pool.tasks := by
  rw [withdraw, List.partition_eq_filter_filter, tasks, tasks]
  induction pool.waiting with
  | nil => rfl
  | cons waiter waiting ih =>
      cases waiter with
      | task t => simpa [Waiter.isDrain, List.filterMap_cons] using ih
      | drain u missing => by_cases same : u = s <;>
          simpa [Waiter.isDrain, List.filterMap_cons, same] using ih

/-- A shutdown that leaves the line waits no longer, and the others do. -/
theorem Pool.shutdowns_withdraw (pool : Pool) (s : Ticket) :
    (pool.withdraw s).shutdowns = pool.shutdowns.filter (· ≠ s) := by
  rw [withdraw, List.partition_eq_filter_filter, shutdowns, shutdowns]
  induction pool.waiting with
  | nil => rfl
  | cons waiter waiting ih =>
      cases waiter with
      | task t => simpa [Waiter.isDrain, List.filterMap_cons] using ih
      | drain u missing => by_cases same : u = s <;>
          simpa [Waiter.isDrain, List.filterMap_cons, same] using ih

/-- A pool, the calls that are on their way, and what has happened. -/
structure SharedPool where
  pool : Pool
  /-- The tasks that found the pool not shut down and have not asked for a slot yet. -/
  entering : List Ticket
  /-- The shutdowns that were announced and have not asked for the slots yet. -/
  announced : List Ticket
  /-- The shutdowns that have still to close the pool, and whether they got all slots. -/
  leaving : List (Ticket × Bool)
  /-- The tasks that were submitted. -/
  called : List Ticket
  /-- The tasks that asked for a slot, in this order. -/
  asked : List Ticket
  /-- The tasks that started, which is when they got their slots, in this order. -/
  started : List Ticket
  /-- The tasks that gave their slots back. -/
  ended : List Ticket
  /-- What the callers of tasks were told: the fault, or that there is a result. -/
  answers : List (Ticket × Option Fault)
  /-- The shutdowns that have begun. -/
  begun : List Ticket
  /-- The shutdowns that are over, and whether they got all slots. -/
  past : List (Ticket × Bool)

namespace SharedPool

/-- A new pool. -/
def start (name : String) (size : Nat) : SharedPool :=
  ⟨.ofSize name size, [], [], [], [], [], [], [], [], [], []⟩

/-- What can happen next. Whoever calls takes a new ticket. -/
inductive Act where
  /-- A task is submitted, which looks whether the pool is shut down. -/
  | submit (ticket : Ticket)
  /-- A task that has looked asks for its slot. -/
  | ask (ticket : Ticket)
  /-- The first of the line gets what is free. -/
  | serve
  /-- A task that runs ends. -/
  | finish (ticket : Ticket) (ending : Ending)
  /-- A shutdown begins, which marks the pool. -/
  | shutDown (ticket : Ticket)
  /-- A shutdown that has begun asks for all slots. -/
  | drain (ticket : Ticket)
  /-- The time of a shutdown that waits is over. -/
  | giveUp (ticket : Ticket)
  /-- A shutdown that has the slots gives them back. -/
  | release (ticket : Ticket)
  /-- A shutdown that no longer waits closes the pool and is over. -/
  | close (ticket : Ticket) (drained : Bool)

/-- Lets the pool take a step, which those whom it concerns learn of. -/
def take (shared : SharedPool) (step : Pool.Step) : SharedPool :=
  let made := shared.pool.perform step
  { shared with
    pool := made.2
    started := shared.started ++ made.1.filterMap Notice.started?
    answers :=
      shared.answers ++ (made.1.filterMap Notice.refused?).map fun t => (t, some shared.pool.refusal)
    leaving := shared.leaving ++ made.1.filterMap Notice.shutDown? }

/-- Lets something happen, if it can. -/
def step (shared : SharedPool) : Act → SharedPool
  | .submit ticket =>
    if ticket ∈ shared.called then shared
    else if shared.pool.isShutDown then
      { shared with
        called := shared.called ++ [ticket]
        answers := shared.answers ++ [(ticket, some shared.pool.refusal)] }
    else
      { shared with called := shared.called ++ [ticket], entering := shared.entering ++ [ticket] }
  | .ask ticket =>
    if ticket ∈ shared.entering then
      { shared.take (.ask ticket) with
        entering := shared.entering.erase ticket, asked := shared.asked ++ [ticket] }
    else shared
  | .serve => shared.take .serve
  | .finish ticket ending =>
    if ticket ∈ shared.pool.running then
      { shared.take (.giveBack ticket) with
        ended := shared.ended ++ [ticket]
        answers := shared.answers ++ [(ticket, ending.fault?)] }
    else shared
  | .shutDown ticket =>
    if ticket ∈ shared.begun then shared
    else
      { shared.take .announce with
        begun := shared.begun ++ [ticket], announced := shared.announced ++ [ticket] }
  | .drain ticket =>
    if ticket ∈ shared.announced then
      { shared.take (.drain ticket) with announced := shared.announced.erase ticket }
    else shared
  | .giveUp ticket =>
    if ticket ∈ shared.pool.shutdowns then
      { shared.take (.withdraw ticket) with leaving := shared.leaving ++ [(ticket, false)] }
    else shared
  | .release ticket =>
    if ticket ∈ shared.pool.holding then
      { shared.take (.release ticket) with leaving := shared.leaving ++ [(ticket, true)] }
    else shared
  | .close ticket drained =>
    if (ticket, drained) ∈ shared.leaving then
      let after := shared.take .close
      { after with
        leaving := after.leaving.erase (ticket, drained)
        past := shared.past ++ [(ticket, drained)] }
    else shared

/-- Lets things happen one after another. -/
def run (shared : SharedPool) (acts : List Act) : SharedPool :=
  acts.foldl step shared

variable {shared : SharedPool}

/-! ## The pool -/

/-- An act leaves the pool as it is, or the pool takes one step. -/
theorem pool_step (shared : SharedPool) (act : Act) :
    (shared.step act).pool = shared.pool
      ∨ ∃ step, (shared.step act).pool = (shared.pool.perform step).2 := by
  cases act <;> simp only [step] <;> repeat' split
  all_goals first | exact .inl rfl | exact .inr ⟨_, rfl⟩

/-- What the steps of a pool keep holds whatever happens. -/
theorem pool_run {P : Pool → Prop} (keeps : ∀ pool step, P pool → P (pool.perform step).2)
    (acts : List Act) (holds : P shared.pool) : P (shared.run acts).pool := by
  induction acts generalizing shared with
  | nil => exact holds
  | cons act acts ih =>
      refine ih ?_
      rcases pool_step shared act with same | ⟨step, taken⟩
      · exact same ▸ holds
      · exact taken ▸ keeps _ step holds

/-! ## Effects -/

/-- All that can happen. -/
inductive Effect (shared : SharedPool) : SharedPool → Prop where
  | nothing : Effect shared shared
  | refuses {t} (new : t ∉ shared.called) (shut : shared.pool.isShutDown = true) : Effect shared
      { shared with
        called := shared.called ++ [t]
        answers := shared.answers ++ [(t, some shared.pool.refusal)] }
  | enters {t} (new : t ∉ shared.called) (notShut : shared.pool.isShutDown = false) : Effect shared
      { shared with called := shared.called ++ [t], entering := shared.entering ++ [t] }
  | dismisses {t} (entering : t ∈ shared.entering) (closed : shared.pool.isClosed = true) :
    Effect shared
      { shared with
        entering := shared.entering.erase t, asked := shared.asked ++ [t]
        answers := shared.answers ++ [(t, some shared.pool.refusal)] }
  | lines {t} (entering : t ∈ shared.entering) (notClosed : shared.pool.isClosed = false) :
    Effect shared
      { shared with
        pool := { shared.pool with waiting := shared.pool.waiting ++ [.task t] }
        entering := shared.entering.erase t, asked := shared.asked ++ [t] }
  | starts {t rest} (line : shared.pool.waiting = .task t :: rest) (some : shared.pool.free ≠ 0) :
    Effect shared
      { shared with
        pool := { shared.pool with
          free := shared.pool.free - 1, running := shared.pool.running ++ [t], waiting := rest }
        started := shared.started ++ [t] }
  | ends {t} (runs : t ∈ shared.pool.running) (ending : Ending) : Effect shared
      { shared with
        pool := { shared.pool with
          free := shared.pool.free + 1, running := shared.pool.running.erase t }
        ended := shared.ended ++ [t], answers := shared.answers ++ [(t, ending.fault?)] }
  | announces {s} (new : s ∉ shared.begun) : Effect shared
      { shared with
        pool := { shared.pool with isShutDown := true }
        begun := shared.begun ++ [s], announced := shared.announced ++ [s] }
  | passes {s} (announced : s ∈ shared.announced) (closed : shared.pool.isClosed = true) :
    Effect shared
      { shared with
        announced := shared.announced.erase s, leaving := shared.leaving ++ [(s, false)] }
  | drains {s} (announced : s ∈ shared.announced) (notClosed : shared.pool.isClosed = false) :
    Effect shared
      { shared with
        pool := { shared.pool with waiting := shared.pool.waiting ++ [.drain s shared.pool.share] }
        announced := shared.announced.erase s }
  | gathers {s missing rest} (line : shared.pool.waiting = .drain s missing :: rest)
    (less : shared.pool.free < missing) : Effect shared
      { shared with
        pool := { shared.pool with
          free := 0, waiting := .drain s (missing - shared.pool.free) :: rest } }
  | holds {s missing rest} (line : shared.pool.waiting = .drain s missing :: rest)
    (enough : ¬ shared.pool.free < missing) : Effect shared
      { shared with
        pool := { shared.pool with
          free := shared.pool.free - missing, waiting := rest
          holding := shared.pool.holding ++ [s] } }
  | givesUp {s} (waits : s ∈ shared.pool.shutdowns) : Effect shared
      { shared with pool := shared.pool.withdraw s, leaving := shared.leaving ++ [(s, false)] }
  | releases {s} (holding : s ∈ shared.pool.holding) : Effect shared
      { shared with
        pool := { shared.pool with
          free := shared.pool.free + shared.pool.share, holding := shared.pool.holding.erase s }
        leaving := shared.leaving ++ [(s, true)] }
  | closes {s drained} (leaving : (s, drained) ∈ shared.leaving) : Effect shared
      { shared with
        pool := shared.pool.close.2
        answers := shared.answers ++ shared.pool.tasks.map fun t => (t, some shared.pool.refusal)
        leaving :=
          (shared.leaving ++ shared.pool.shutdowns.map fun s => (s, false)).erase (s, drained)
        past := shared.past ++ [(s, drained)] }

/-- Who is turned away when a pool is closed. -/
theorem filterMap_dismissal (waiting : List Waiter) :
    (waiting.map Waiter.dismissal).filterMap Notice.started? = []
      ∧ (waiting.map Waiter.dismissal).filterMap Notice.refused? = waiting.filterMap Waiter.task?
      ∧ (waiting.map Waiter.dismissal).filterMap Notice.shutDown?
        = (waiting.filterMap Waiter.shutdown?).map fun s => (s, false) := by
  induction waiting with
  | nil => exact ⟨rfl, rfl, rfl⟩
  | cons waiter waiting ih =>
      obtain ⟨started, refused, shutDown⟩ := ih
      cases waiter <;>
        simp [Waiter.dismissal, List.filterMap_cons, started, refused, shutDown]

theorem effect_serve (shared : SharedPool) : shared.Effect (shared.take .serve) := by
  rw [take, Pool.perform, Pool.serve]
  split
  · simpa using Effect.nothing
  · next line =>
      split
      · simpa using Effect.nothing
      · next some => simpa [List.filterMap_cons] using Effect.starts line some
  · next line =>
      split
      · next less => simpa using Effect.gathers line less
      · next enough => simpa using Effect.holds line enough

/-- Whatever happens has one of the effects. -/
theorem effect_step (shared : SharedPool) (act : Act) : shared.Effect (shared.step act) := by
  cases act with
  | submit t =>
      rw [step]
      split
      · exact .nothing
      · next new =>
          split
          · next shut => exact .refuses new shut
          · next notShut => exact .enters new (eq_false_of_ne_true notShut)
  | ask t =>
      rw [step]
      split
      · next entering =>
          rw [take, Pool.perform, Pool.request]
          split
          · next closed =>
              simpa [Waiter.dismissal, List.filterMap_cons] using Effect.dismisses entering closed
          · next notClosed => simpa using Effect.lines entering (eq_false_of_ne_true notClosed)
      · exact .nothing
  | serve => exact effect_serve shared
  | finish t ending =>
      rw [step]
      split
      · next runs =>
          rw [take, Pool.perform, Pool.giveBack, if_pos runs]
          simpa using Effect.ends runs ending
      · exact .nothing
  | shutDown s =>
      rw [step]
      split
      · exact .nothing
      · next new => simpa [take, Pool.perform, Pool.announce] using Effect.announces new
  | drain s =>
      rw [step]
      split
      · next announced =>
          rw [take, Pool.perform, Pool.request]
          split
          · next closed =>
              simpa [Waiter.dismissal, List.filterMap_cons] using Effect.passes announced closed
          · next notClosed => simpa using Effect.drains announced (eq_false_of_ne_true notClosed)
      · exact .nothing
  | giveUp s =>
      rw [step]
      split
      · next waits => simpa [take, Pool.perform] using Effect.givesUp waits
      · exact .nothing
  | release s =>
      rw [step]
      split
      · next holding =>
          rw [take, Pool.perform, Pool.release, if_pos holding]
          simpa using Effect.releases holding
      · exact .nothing
  | close s drained =>
      rw [step]
      split
      · next leaving =>
          obtain ⟨started, refused, shutDown⟩ := filterMap_dismissal shared.pool.waiting
          simpa [take, Pool.perform, Pool.close, Pool.tasks, Pool.shutdowns, started, refused,
            shutDown] using Effect.closes leaving
      · exact .nothing

end SharedPool

end RemoteCall.Workers
