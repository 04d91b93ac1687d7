import RemoteCall.Proofs.Workers.Tasks

/-! # Where the shutdowns of a pool are

    Every shutdown that has begun is at one place at a time (`Shutdowns`).  So
    once all of them are over (`Idle`), none of them has a slot, and those that
    are taken are the slots of the tasks that run (`inFlight_eq`). -/

namespace RemoteCall.Workers.SharedPool

variable {shared : SharedPool}

/-- Every shutdown that has begun is at one place (`placed`): it has still to ask for the slots,
waits, has them, has still to close the pool, or is over. -/
structure Shutdowns (shared : SharedPool) : Prop where
  once : shared.begun.Nodup
  placed : ∀ s, shared.begun.count s = shared.announced.count s + shared.pool.shutdowns.count s
    + shared.pool.holding.count s + (shared.leaving.map (·.1)).count s
    + (shared.past.map (·.1)).count s
  marked : shared.pool.isShutDown = true ↔ shared.begun ≠ []
  closed : shared.pool.isClosed = true ↔ shared.past ≠ []

theorem shutdowns_start (name : String) (size : Nat) : (start name size).Shutdowns := by
  constructor <;> simp [start, Pool.ofSize, Pool.shutdowns]

namespace Shutdowns

variable {after : SharedPool} (shutdowns : shared.Shutdowns)

include shutdowns

/-- The accounts of shutdowns stay right where nothing happens to shutdowns. -/
theorem of_same (begun : after.begun = shared.begun)
    (announced : after.announced = shared.announced)
    (waiting : after.pool.shutdowns = shared.pool.shutdowns)
    (holding : after.pool.holding = shared.pool.holding) (leaving : after.leaving = shared.leaving)
    (past : after.past = shared.past) (marked : after.pool.isShutDown = shared.pool.isShutDown)
    (closed : after.pool.isClosed = shared.pool.isClosed) : after.Shutdowns := by
  constructor <;> simp only [begun, announced, waiting, holding, leaving, past, marked, closed]
  exacts [shutdowns.once, shutdowns.placed, shutdowns.marked, shutdowns.closed]

/-- A shutdown begins. -/
theorem of_announces {s : Ticket} (new : s ∉ shared.begun) : Shutdowns { shared with
    pool := { shared.pool with isShutDown := true }
    begun := shared.begun ++ [s], announced := shared.announced ++ [s] } := by
  refine ⟨nodup_concat shutdowns.once new, fun u => ?_, ?_, shutdowns.closed⟩
  · have placed := shutdowns.placed u
    simp only [Pool.shutdowns, List.count_append] at placed ⊢
    omega
  · exact iff_of_true rfl (by simp)

/-- A shutdown joins the line. -/
theorem of_drains {s : Ticket} (announced : s ∈ shared.announced) : Shutdowns { shared with
    pool := { shared.pool with waiting := shared.pool.waiting ++ [.drain s shared.pool.share] }
    announced := shared.announced.erase s } := by
  refine ⟨shutdowns.once, fun u => ?_, shutdowns.marked, shutdowns.closed⟩
  have placed := shutdowns.placed u
  have moved := count_erase_add announced u
  have waiting :
      (shared.pool.waiting ++ [Waiter.drain s shared.pool.share]).filterMap Waiter.shutdown?
      = shared.pool.shutdowns ++ [s] := List.filterMap_append
  simp only [Pool.shutdowns, waiting, List.count_append] at placed ⊢
  omega

/-- A shutdown finds the pool closed. -/
theorem of_passes {s : Ticket} (announced : s ∈ shared.announced) : Shutdowns { shared with
    announced := shared.announced.erase s, leaving := shared.leaving ++ [(s, false)] } := by
  refine ⟨shutdowns.once, fun u => ?_, shutdowns.marked, shutdowns.closed⟩
  have placed := shutdowns.placed u
  have moved := count_erase_add announced u
  simp only [List.map_append, List.map_singleton, List.count_append]
  omega

/-- A shutdown has the slots that it waited for. -/
theorem of_holds {s : Ticket} {missing : Nat} {rest : List Waiter}
    (line : shared.pool.waiting = .drain s missing :: rest) : Shutdowns { shared with
      pool := { shared.pool with
        free := shared.pool.free - missing, waiting := rest
        holding := shared.pool.holding ++ [s] } } := by
  refine ⟨shutdowns.once, fun u => ?_, shutdowns.marked, shutdowns.closed⟩
  have placed := shutdowns.placed u
  have waiting : shared.pool.shutdowns = [s] ++ rest.filterMap Waiter.shutdown? := by
    rw [Pool.shutdowns, line]
    rfl
  rw [waiting, List.count_append] at placed
  simp only [Pool.shutdowns, List.count_append]
  omega

/-- A shutdown waits no longer. -/
theorem of_givesUp {s : Ticket} (waits : s ∈ shared.pool.shutdowns) : Shutdowns { shared with
    pool := shared.pool.withdraw s, leaving := shared.leaving ++ [(s, false)] } := by
  refine ⟨shutdowns.once, fun u => ?_, shutdowns.marked, shutdowns.closed⟩
  have placed := shutdowns.placed u
  have once := List.nodup_iff_count_le_one.mp shutdowns.once u
  simp only [Pool.shutdowns_withdraw, List.map_append, List.map_singleton, List.count_append]
  by_cases same : u = s
  · subst same
    have some := List.count_pos_iff.mpr waits
    have none : (shared.pool.shutdowns.filter (· ≠ u)).count u = 0 :=
      List.count_eq_zero.mpr fun mem => of_decide_eq_true (List.mem_filter.mp mem).2 rfl
    have own : [u].count u = 1 := List.count_singleton_self
    show _ = _ + _ + shared.pool.holding.count u + _ + _
    omega
  · have others : (shared.pool.shutdowns.filter (· ≠ s)).count u = shared.pool.shutdowns.count u :=
      List.count_filter (decide_eq_true same)
    have own : [s].count u = 0 := List.count_eq_zero.mpr fun mem => same (List.mem_singleton.mp mem)
    show _ = _ + _ + shared.pool.holding.count u + _ + _
    omega

/-- A shutdown gives the slots back that it has. -/
theorem of_releases {s : Ticket} (holding : s ∈ shared.pool.holding) : Shutdowns { shared with
    pool := { shared.pool with
      free := shared.pool.free + shared.pool.share, holding := shared.pool.holding.erase s }
    leaving := shared.leaving ++ [(s, true)] } := by
  refine ⟨shutdowns.once, fun u => ?_, shutdowns.marked, shutdowns.closed⟩
  have placed := shutdowns.placed u
  have moved := count_erase_add holding u
  simp only [Pool.shutdowns, List.map_append, List.map_singleton, List.count_append] at placed ⊢
  omega

/-- A shutdown closes the pool and is over, and those that wait have to leave. -/
theorem of_closes {s : Ticket} {drained : Bool} (leaving : (s, drained) ∈ shared.leaving)
    (answers : List (Ticket × Option Fault)) : Shutdowns { shared with
      pool := shared.pool.close.2
      answers := answers
      leaving :=
        (shared.leaving ++ shared.pool.shutdowns.map fun s => (s, false)).erase (s, drained)
      past := shared.past ++ [(s, drained)] } := by
  refine ⟨shutdowns.once, fun u => ?_, shutdowns.marked, iff_of_true rfl (by simp)⟩
  have placed := shutdowns.placed u
  have parts := List.perm_cons_erase
    (List.mem_append_left (shared.pool.shutdowns.map fun s => (s, false)) leaving)
  have moved := (parts.map fun entry : Ticket × Bool => entry.1).count_eq u
  rw [List.map_cons, ← List.singleton_append, List.count_append] at moved
  simp only [List.map_append, List.map_map, Function.comp_def, List.map_id', List.map_singleton,
    List.count_append] at moved ⊢
  show _ = _ + ([] : List Ticket).count u + shared.pool.holding.count u + _ + _
  rw [List.count_nil]
  omega

/-- Whatever happens, the accounts of shutdowns stay right. -/
theorem of_effect (effect : shared.Effect after) : after.Shutdowns := by
  cases effect with
  | nothing => exact shutdowns
  | refuses new shut => exact shutdowns.of_same rfl rfl rfl rfl rfl rfl rfl rfl
  | enters new notShut => exact shutdowns.of_same rfl rfl rfl rfl rfl rfl rfl rfl
  | dismisses entering closed => exact shutdowns.of_same rfl rfl rfl rfl rfl rfl rfl rfl
  | @lines t entering notClosed =>
      have waiting : (shared.pool.waiting ++ [Waiter.task t]).filterMap Waiter.shutdown?
          = shared.pool.shutdowns := List.filterMap_append.trans (List.append_nil _)
      exact shutdowns.of_same rfl rfl waiting rfl rfl rfl rfl rfl
  | starts line some =>
      refine shutdowns.of_same rfl rfl ?_ rfl rfl rfl rfl rfl
      rw [Pool.shutdowns, Pool.shutdowns, line]
      rfl
  | ends runs ending => exact shutdowns.of_same rfl rfl rfl rfl rfl rfl rfl rfl
  | announces new => exact shutdowns.of_announces new
  | passes announced closed => exact shutdowns.of_passes announced
  | drains announced notClosed => exact shutdowns.of_drains announced
  | gathers line less =>
      refine shutdowns.of_same rfl rfl ?_ rfl rfl rfl rfl rfl
      rw [Pool.shutdowns, Pool.shutdowns, line]
      rfl
  | holds line enough => exact shutdowns.of_holds line
  | givesUp waits => exact shutdowns.of_givesUp waits
  | releases holding => exact shutdowns.of_releases holding
  | closes leaving => exact shutdowns.of_closes leaving _

end Shutdowns

/-! ## Outside shutdowns -/

/-- All shutdowns that have begun are over. -/
def Idle (shared : SharedPool) : Prop :=
  ∀ s ∈ shared.begun, ∃ drained, (s, drained) ∈ shared.past

/-- As long as no shutdown has begun, the pool is not shut down, and it is not closed. -/
theorem Shutdowns.of_none (shutdowns : shared.Shutdowns) (none : shared.begun = []) :
    shared.pool.isShutDown = false ∧ shared.pool.isClosed = false := by
  constructor
  · exact eq_false_of_ne_true fun shut => shutdowns.marked.mp shut none
  · have empty : shared.past.map (·.1) = [] := by
      refine List.eq_nil_iff_forall_not_mem.mpr fun s mem => ?_
      have placed := shutdowns.placed s
      have some := List.count_pos_iff.mpr mem
      rw [none, List.count_nil] at placed
      omega
    exact eq_false_of_ne_true fun closed =>
      shutdowns.closed.mp closed (List.map_eq_nil_iff.mp empty)

/-- When all shutdowns are over, only tasks wait, and no shutdown has slots. -/
theorem Shutdowns.of_idle (shutdowns : shared.Shutdowns) (idle : shared.Idle) :
    shared.pool.shutdowns = [] ∧ shared.pool.holding = [] := by
  have nowhere (s : Ticket) :
      shared.pool.shutdowns.count s = 0 ∧ shared.pool.holding.count s = 0 := by
    have placed := shutdowns.placed s
    have once := List.nodup_iff_count_le_one.mp shutdowns.once s
    by_cases begun : s ∈ shared.begun
    · obtain ⟨drained, past⟩ := idle s begun
      have some : 0 < (shared.past.map (·.1)).count s :=
        List.count_pos_iff.mpr (List.mem_map.mpr ⟨_, past, rfl⟩)
      omega
    · have none := List.count_eq_zero.mpr begun
      omega
  constructor
  · exact List.eq_nil_iff_forall_not_mem.mpr fun s => List.count_eq_zero.mp (nowhere s).1
  · exact List.eq_nil_iff_forall_not_mem.mpr fun s => List.count_eq_zero.mp (nowhere s).2

/-- Where no shutdown waits, all who wait are tasks. -/
theorem waiting_eq_tasks {pool : Pool} (none : pool.shutdowns = []) :
    pool.waiting = pool.tasks.map .task := by
  rw [Pool.shutdowns] at none
  rw [Pool.tasks]
  generalize pool.waiting = waiting at none ⊢
  induction waiting with
  | nil => rfl
  | cons waiter waiting ih =>
      cases waiter with
      | task t => exact congrArg (.task t :: ·) (ih none)
      | drain s missing => exact absurd none (List.cons_ne_nil s _)

/-- When all shutdowns are over, the slots that are not free are those of the tasks that run. -/
theorem Shutdowns.inFlight_eq (shutdowns : shared.Shutdowns) (balanced : shared.pool.Balanced)
    (idle : shared.Idle) : shared.pool.inFlight = shared.pool.running.length := by
  obtain ⟨waits, holding⟩ := shutdowns.of_idle idle
  have slots := balanced.slots
  have none : ((shared.pool.tasks.map Waiter.task).map (Waiter.held shared.pool.share)).sum = 0 := by
    rw [List.map_map]
    exact List.sum_eq_zero fun n mem => by
      obtain ⟨t, -, rfl⟩ := List.mem_map.mp mem
      rfl
  rw [Pool.reserved, waiting_eq_tasks waits, none, holding, List.length_nil, Nat.zero_mul] at slots
  rw [Pool.inFlight]
  omega

end RemoteCall.Workers.SharedPool
