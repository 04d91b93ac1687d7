import RemoteCall.Proofs.Workers.Calls

/-! # Where the tasks of a pool are

    Every task that was submitted is at one place at a time (`Accounts`).  Those
    that have started come first among those that asked for a slot, in the same
    order; as long as the pool is not closed, those behind them wait.  Each
    effect keeps this (`Accounts.of_effect`). -/

namespace RemoteCall.Workers.SharedPool

variable {shared : SharedPool}

theorem nodup_concat {tickets : List Ticket} {t : Ticket} (nodup : tickets.Nodup)
    (new : t ∉ tickets) : (tickets ++ [t]).Nodup := by
  rw [← List.concat_eq_append]
  exact nodup.concat new

theorem count_erase_add {tickets : List Ticket} {t : Ticket} (mem : t ∈ tickets) (u : Ticket) :
    (tickets.erase t).count u + [t].count u = tickets.count u := by
  rw [(List.perm_cons_erase mem).count_eq u, ← List.count_append]
  exact List.perm_append_comm.count_eq u

/-- Every task that was submitted is at one place (`placed`): it has still to ask for a slot, waits,
runs, or was told what came of it. -/
structure Accounts (shared : SharedPool) : Prop where
  once : shared.called.Nodup
  placed : ∀ t, shared.called.count t = shared.entering.count t + shared.pool.tasks.count t
    + shared.pool.running.count t + (shared.answers.map (·.1)).count t
  asks : ∀ t, shared.asked.count t + shared.entering.count t ≤ shared.called.count t
  starts : ∀ t, shared.started.count t = shared.pool.running.count t + shared.ended.count t
  ordered : shared.pool.isClosed = false → shared.asked = shared.started ++ shared.pool.tasks
  first : shared.started <+: shared.asked
  told : ∀ t ∈ shared.ended, ∃ ending : Ending, (t, ending.fault?) ∈ shared.answers
  known : ∀ answer ∈ shared.answers,
    answer.1 ∈ shared.ended ∧ (∃ ending : Ending, answer.2 = ending.fault?)
      ∨ answer.1 ∉ shared.started ∧ answer.2 = some shared.pool.refusal
  seen : ∀ t ∈ shared.asked, t ∈ shared.started ∨ t ∈ shared.pool.tasks
    ∨ (t, some shared.pool.refusal) ∈ shared.answers

theorem accounts_start (name : String) (size : Nat) : (start name size).Accounts := by
  constructor <;> simp [start, Pool.ofSize, Pool.tasks]

namespace Accounts

variable {after : SharedPool} (accounts : shared.Accounts)

include accounts

theorem count_called_le (t : Ticket) : shared.called.count t ≤ 1 :=
  List.nodup_iff_count_le_one.mp accounts.once t

/-- What has not been submitted has not started. -/
theorem not_mem_started {t : Ticket} (new : t ∉ shared.called) : t ∉ shared.started := by
  intro started
  have none := List.count_eq_zero.mpr new
  have some := List.count_pos_iff.mpr (accounts.first.subset started)
  have asks := accounts.asks t
  omega

/-- A task that has still to ask for a slot has not started. -/
theorem not_mem_started_of_entering {t : Ticket} (entering : t ∈ shared.entering) :
    t ∉ shared.started := by
  intro started
  have some := List.count_pos_iff.mpr entering
  have more := List.count_pos_iff.mpr (accounts.first.subset started)
  have asks := accounts.asks t
  have once := accounts.count_called_le t
  omega

/-- A task that waits has not started, as the pool is not closed then. -/
theorem not_mem_started_of_waits (notClosed : shared.pool.isClosed = false) {t : Ticket}
    (waits : t ∈ shared.pool.tasks) : t ∉ shared.started := by
  intro started
  have some := List.count_pos_iff.mpr started
  have more := List.count_pos_iff.mpr waits
  have asks := accounts.asks t
  rw [accounts.ordered notClosed, List.count_append] at asks
  have once := accounts.count_called_le t
  omega

/-- A task that waits was told nothing. -/
theorem not_answered_of_waits {t : Ticket} (waits : t ∈ shared.pool.tasks) :
    ∀ answer ∈ shared.answers, answer.1 ≠ t := by
  intro answer mem same
  have some := List.count_pos_iff.mpr waits
  have more : 0 < (shared.answers.map (·.1)).count t :=
    List.count_pos_iff.mpr (List.mem_map.mpr ⟨answer, mem, same⟩)
  have placed := accounts.placed t
  have once := accounts.count_called_le t
  omega

/-- More answers leave those that there are. -/
theorem told_append (more : List (Ticket × Option Fault)) :
    ∀ t ∈ shared.ended, ∃ ending : Ending, (t, ending.fault?) ∈ shared.answers ++ more := by
  intro t ended
  obtain ⟨ending, told⟩ := accounts.told t ended
  exact ⟨ending, List.mem_append_left _ told⟩

/-- Tasks that have not started can be turned away. -/
theorem known_append (turned : List Ticket) (notStarted : ∀ t ∈ turned, t ∉ shared.started) :
    ∀ answer ∈ shared.answers ++ turned.map fun t => (t, some shared.pool.refusal),
      answer.1 ∈ shared.ended ∧ (∃ ending : Ending, answer.2 = ending.fault?)
        ∨ answer.1 ∉ shared.started ∧ answer.2 = some shared.pool.refusal := by
  intro answer mem
  rcases List.mem_append.mp mem with mem | mem
  · exact accounts.known answer mem
  · obtain ⟨t, away, rfl⟩ := List.mem_map.mp mem
    exact .inr ⟨notStarted t away, rfl⟩

/-- The accounts of tasks stay right where nothing happens to tasks. -/
theorem of_same (called : after.called = shared.called)
    (entering : after.entering = shared.entering)
    (tasks : after.pool.tasks = shared.pool.tasks)
    (running : after.pool.running = shared.pool.running)
    (answers : after.answers = shared.answers) (asked : after.asked = shared.asked)
    (started : after.started = shared.started) (ended : after.ended = shared.ended)
    (closed : after.pool.isClosed = shared.pool.isClosed)
    (refusal : after.pool.refusal = shared.pool.refusal) : after.Accounts := by
  constructor <;>
    simp only [called, entering, tasks, running, answers, asked, started, ended, closed, refusal]
  exacts [accounts.once, accounts.placed, accounts.asks, accounts.starts, accounts.ordered,
    accounts.first, accounts.told, accounts.known, accounts.seen]

/-- A task is turned away at once. -/
theorem of_refuses {t : Ticket} (new : t ∉ shared.called) : Accounts { shared with
    called := shared.called ++ [t]
    answers := shared.answers ++ [(t, some shared.pool.refusal)] } := by
  refine ⟨nodup_concat accounts.once new, fun u => ?_, fun u => ?_, accounts.starts,
    accounts.ordered, accounts.first, accounts.told_append _, ?_, fun u asked => ?_⟩
  · have placed := accounts.placed u
    simp only [List.map_append, List.map_singleton, List.count_append]
    omega
  · have asks := accounts.asks u
    simp only [List.count_append]
    omega
  · refine accounts.known_append [t] fun u same => ?_
    exact List.mem_singleton.mp same ▸ accounts.not_mem_started new
  · exact (accounts.seen u asked).imp_right (.imp_right (List.mem_append_left _))

/-- A task is let in. -/
theorem of_enters {t : Ticket} (new : t ∉ shared.called) : Accounts { shared with
    called := shared.called ++ [t], entering := shared.entering ++ [t] } := by
  refine ⟨nodup_concat accounts.once new, fun u => ?_, fun u => ?_, accounts.starts,
    accounts.ordered, accounts.first, accounts.told, accounts.known, accounts.seen⟩
  · have placed := accounts.placed u
    simp only [List.count_append]
    omega
  · have asks := accounts.asks u
    simp only [List.count_append]
    omega

/-- A task that asks for its slot is put down as one that has asked. -/
theorem asks_concat {t : Ticket} (entering : t ∈ shared.entering) (u : Ticket) :
    (shared.asked ++ [t]).count u + (shared.entering.erase t).count u ≤ shared.called.count u := by
  have asks := accounts.asks u
  have moved := count_erase_add entering u
  rw [List.count_append]
  omega

/-- A task asks for its slot and is turned away. -/
theorem of_dismisses {t : Ticket} (entering : t ∈ shared.entering)
    (closed : shared.pool.isClosed = true) : Accounts { shared with
      entering := shared.entering.erase t, asked := shared.asked ++ [t]
      answers := shared.answers ++ [(t, some shared.pool.refusal)] } := by
  refine ⟨accounts.once, fun u => ?_, accounts.asks_concat entering, accounts.starts,
    fun notClosed => (nomatch closed.symm.trans notClosed),
    accounts.first.trans (List.prefix_append ..), accounts.told_append _, ?_, fun u asked => ?_⟩
  · have placed := accounts.placed u
    have moved := count_erase_add entering u
    simp only [List.map_append, List.map_singleton, List.count_append]
    omega
  · refine accounts.known_append [t] fun u same => ?_
    exact List.mem_singleton.mp same ▸ accounts.not_mem_started_of_entering entering
  · rcases List.mem_append.mp asked with asked | same
    · exact (accounts.seen u asked).imp_right (.imp_right (List.mem_append_left _))
    · obtain rfl := List.mem_singleton.mp same
      exact .inr (.inr (List.mem_append_right _ (.head _)))

/-- A task asks for its slot and waits. -/
theorem of_lines {t : Ticket} (entering : t ∈ shared.entering)
    (notClosed : shared.pool.isClosed = false) : Accounts { shared with
      pool := { shared.pool with waiting := shared.pool.waiting ++ [.task t] }
      entering := shared.entering.erase t, asked := shared.asked ++ [t] } := by
  have tasks : (shared.pool.waiting ++ [Waiter.task t]).filterMap Waiter.task?
      = shared.pool.tasks ++ [t] := List.filterMap_append
  refine ⟨accounts.once, fun u => ?_, accounts.asks_concat entering, accounts.starts, fun _ => ?_,
    accounts.first.trans (List.prefix_append ..), accounts.told, accounts.known, fun u asked => ?_⟩
  · have placed := accounts.placed u
    have moved := count_erase_add entering u
    simp only [Pool.tasks, tasks, List.count_append] at placed ⊢
    omega
  · rw [Pool.tasks, tasks, accounts.ordered notClosed, List.append_assoc]
  · rw [Pool.tasks, tasks]
    rcases List.mem_append.mp asked with asked | same
    · exact (accounts.seen u asked).imp_right (.imp_left (List.mem_append_left _))
    · exact .inr (.inl (List.mem_append_right _ same))

/-- A task starts. -/
theorem of_starts (balanced : shared.pool.Balanced) {t : Ticket} {rest : List Waiter}
    (line : shared.pool.waiting = .task t :: rest) : Accounts { shared with
      pool := { shared.pool with
        free := shared.pool.free - 1, running := shared.pool.running ++ [t], waiting := rest }
      started := shared.started ++ [t] } := by
  have notClosed : shared.pool.isClosed = false := by
    refine eq_false_of_ne_true fun closed => ?_
    exact nomatch line.symm.trans (balanced.quiet closed)
  have tasks : shared.pool.tasks = t :: rest.filterMap Waiter.task? := by
    rw [Pool.tasks, line]
    rfl
  have ordered : shared.asked = (shared.started ++ [t]) ++ rest.filterMap Waiter.task? := by
    rw [accounts.ordered notClosed, tasks, List.append_assoc]
    rfl
  refine ⟨accounts.once, fun u => ?_, accounts.asks, fun u => ?_, fun _ => ordered, ?_,
    accounts.told, fun answer mem => ?_, fun u asked => ?_⟩
  · have placed := accounts.placed u
    rw [tasks, ← List.singleton_append, List.count_append] at placed
    simp only [Pool.tasks, List.count_append]
    omega
  · have starts := accounts.starts u
    simp only [List.count_append]
    omega
  · exact ordered ▸ List.prefix_append ..
  · refine (accounts.known answer mem).imp_right (And.imp_left fun notStarted started => ?_)
    rcases List.mem_append.mp started with started | same
    · exact notStarted started
    · refine accounts.not_answered_of_waits (t := t) ?_ answer mem (List.mem_singleton.mp same)
      exact tasks ▸ .head _
  · rcases List.mem_append.mp (ordered ▸ asked) with started | waits
    · exact .inl started
    · exact .inr (.inl waits)

/-- A task ends. -/
theorem of_ends {t : Ticket} (runs : t ∈ shared.pool.running) (ending : Ending) :
    Accounts { shared with
      pool := { shared.pool with
        free := shared.pool.free + 1, running := shared.pool.running.erase t }
      ended := shared.ended ++ [t], answers := shared.answers ++ [(t, ending.fault?)] } := by
  refine ⟨accounts.once, fun u => ?_, accounts.asks, fun u => ?_, accounts.ordered,
    accounts.first, fun u ended => ?_, fun answer mem => ?_, fun u asked => ?_⟩
  · have placed := accounts.placed u
    have moved := count_erase_add runs u
    simp only [Pool.tasks, List.map_append, List.map_singleton, List.count_append] at placed ⊢
    omega
  · have starts := accounts.starts u
    have moved := count_erase_add runs u
    simp only [List.count_append]
    omega
  · rcases List.mem_append.mp ended with ended | same
    · exact accounts.told_append _ u ended
    · obtain rfl := List.mem_singleton.mp same
      exact ⟨ending, List.mem_append_right _ (.head _)⟩
  · rcases List.mem_append.mp mem with mem | same
    · exact (accounts.known answer mem).imp_left (And.imp_left (List.mem_append_left _))
    · obtain rfl := List.mem_singleton.mp same
      exact .inl ⟨List.mem_append_right _ (.head _), ending, rfl⟩
  · exact (accounts.seen u asked).imp_right (.imp_right (List.mem_append_left _))

/-- Everybody who waits is turned away. -/
theorem of_closes (balanced : shared.pool.Balanced) (leaving past : List (Ticket × Bool)) :
    Accounts { shared with
      pool := shared.pool.close.2
      answers := shared.answers ++ shared.pool.tasks.map fun t => (t, some shared.pool.refusal)
      leaving := leaving, past := past } := by
  refine ⟨accounts.once, fun u => ?_, accounts.asks, accounts.starts,
    fun closed => (nomatch closed), accounts.first, accounts.told_append _, ?_, fun u asked => ?_⟩
  · have placed := accounts.placed u
    simp only [List.map_append, List.map_map, Function.comp_def, List.map_id', List.count_append]
    show _ = _ + ([] : List Ticket).count u + shared.pool.running.count u + _
    rw [List.count_nil]
    omega
  · refine accounts.known_append _ fun u waits => ?_
    refine accounts.not_mem_started_of_waits (eq_false_of_ne_true fun closed => ?_) waits
    rw [Pool.tasks, balanced.quiet closed] at waits
    exact absurd waits List.not_mem_nil
  · refine .imp_right (fun seen => .inr ?_) (accounts.seen u asked)
    rcases seen with waits | told
    · exact List.mem_append_right _ (List.mem_map.mpr ⟨u, waits, rfl⟩)
    · exact List.mem_append_left _ told

/-- Whatever happens, the accounts of tasks stay right. -/
theorem of_effect (balanced : shared.pool.Balanced) (effect : shared.Effect after) :
    after.Accounts := by
  cases effect with
  | nothing => exact accounts
  | refuses new shut => exact accounts.of_refuses new
  | enters new notShut => exact accounts.of_enters new
  | dismisses entering closed => exact accounts.of_dismisses entering closed
  | lines entering notClosed => exact accounts.of_lines entering notClosed
  | starts line some => exact accounts.of_starts balanced line
  | ends runs ending => exact accounts.of_ends runs ending
  | announces new => exact accounts.of_same rfl rfl rfl rfl rfl rfl rfl rfl rfl rfl
  | passes announced closed => exact accounts.of_same rfl rfl rfl rfl rfl rfl rfl rfl rfl rfl
  | @drains s announced notClosed =>
      have tasks : (shared.pool.waiting ++ [Waiter.drain s shared.pool.share]).filterMap Waiter.task?
          = shared.pool.tasks := List.filterMap_append.trans (List.append_nil _)
      exact accounts.of_same rfl rfl tasks rfl rfl rfl rfl rfl rfl rfl
  | gathers line less =>
      refine accounts.of_same rfl rfl ?_ rfl rfl rfl rfl rfl rfl rfl
      rw [Pool.tasks, Pool.tasks, line]
      rfl
  | holds line enough =>
      refine accounts.of_same rfl rfl ?_ rfl rfl rfl rfl rfl rfl rfl
      rw [Pool.tasks, Pool.tasks, line]
      rfl
  | givesUp waits =>
      exact accounts.of_same rfl rfl (Pool.tasks_withdraw ..) rfl rfl rfl rfl rfl rfl rfl
  | releases holding => exact accounts.of_same rfl rfl rfl rfl rfl rfl rfl rfl rfl rfl
  | closes leaving => exact accounts.of_closes balanced _ _

end Accounts

end RemoteCall.Workers.SharedPool
