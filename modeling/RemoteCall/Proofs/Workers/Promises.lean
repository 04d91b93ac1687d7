import RemoteCall.Proofs.Workers.Shutdowns

/-! # What a pool promises

    A pool bounds how many tasks run at once, loses no slot, starts tasks in
    the order in which they asked for their slots, and turns away those that
    come too late (`Promises`).  This holds after any run of calls, whose steps
    may come in any order (`promises_run`).

    The promises follow from the accounts of slots, tasks and shutdowns
    (`Sound`), and from this, that what has happened is not undone (`Grows`).
    That no task waits for ever takes a run of its own: each task that waits
    starts when it is served, at the latest after another one has ended
    (`exists_start`). -/

namespace RemoteCall.Workers.SharedPool

variable {shared after : SharedPool}

/-! ## Runs -/

/-- The accounts are right. -/
structure Sound (shared : SharedPool) : Prop where
  balanced : shared.pool.Balanced
  accounts : shared.Accounts
  shutdowns : shared.Shutdowns

theorem sound_start (name : String) (size : Nat) : (start name size).Sound :=
  ⟨Pool.balanced_ofSize name size, accounts_start name size, shutdowns_start name size⟩

theorem Sound.step (sound : shared.Sound) (act : Act) : (shared.step act).Sound where
  balanced := by
    rcases pool_step shared act with same | ⟨step, taken⟩
    · exact same ▸ sound.balanced
    · exact taken ▸ sound.balanced.perform step
  accounts := sound.accounts.of_effect sound.balanced (effect_step shared act)
  shutdowns := sound.shutdowns.of_effect (effect_step shared act)

theorem Sound.run (sound : shared.Sound) (acts : List Act) : (shared.run acts).Sound := by
  induction acts generalizing shared with
  | nil => exact sound
  | cons act acts ih => exact ih (sound.step act)

/-- What has happened is not undone. -/
structure Grows (shared after : SharedPool) : Prop where
  asked : shared.asked <+: after.asked
  started : shared.started <+: after.started
  answers : shared.answers <+: after.answers
  name : after.pool.name = shared.pool.name
  closed : shared.pool.isClosed = true → after.pool.isClosed = true

theorem Grows.refl (shared : SharedPool) : shared.Grows shared :=
  ⟨List.prefix_rfl, List.prefix_rfl, List.prefix_rfl, rfl, id⟩

theorem Grows.trans {last : SharedPool} (first : shared.Grows after) (second : after.Grows last) :
    shared.Grows last :=
  ⟨first.asked.trans second.asked, first.started.trans second.started,
    first.answers.trans second.answers, second.name.trans first.name, second.closed ∘ first.closed⟩

theorem Effect.grows (effect : shared.Effect after) : shared.Grows after := by
  cases effect <;> constructor <;>
    first
    | exact List.prefix_rfl
    | exact List.prefix_append ..
    | exact id
    | exact fun _ => rfl
    | rfl

theorem grows_run (shared : SharedPool) (acts : List Act) : shared.Grows (shared.run acts) := by
  induction acts generalizing shared with
  | nil => exact .refl shared
  | cons act acts ih => exact (effect_step shared act).grows.trans (ih (shared.step act))

/-- In a closed pool no task starts. -/
theorem Effect.started_eq (effect : shared.Effect after) (balanced : shared.pool.Balanced)
    (closed : shared.pool.isClosed = true) : after.started = shared.started := by
  cases effect with
  | starts line some => exact nomatch line.symm.trans (balanced.quiet closed)
  | _ => rfl

theorem Sound.started_run (sound : shared.Sound) (closed : shared.pool.isClosed = true)
    (acts : List Act) : (shared.run acts).started = shared.started := by
  induction acts generalizing shared with
  | nil => rfl
  | cons act acts ih =>
      have effect := effect_step shared act
      exact (ih (sound.step act) (effect.grows.closed closed)).trans
        (effect.started_eq sound.balanced closed)

theorem step_finish {t : Ticket} (runs : t ∈ shared.pool.running) (ending : Ending) :
    shared.step (.finish t ending) = { shared with
      pool := { shared.pool with
        free := shared.pool.free + 1, running := shared.pool.running.erase t }
      ended := shared.ended ++ [t], answers := shared.answers ++ [(t, ending.fault?)] } := by
  rw [step, if_pos runs, take, Pool.perform, Pool.giveBack, if_pos runs]
  simp

/-- A task gives its slot back when it ends. -/
theorem mem_ended_step {act : Act} {t : Ticket} (ended : t ∈ (shared.step act).ended) :
    t ∈ shared.ended ∨ ∃ ending, act = .finish t ending := by
  cases act with
  | finish u ending =>
      rw [step] at ended
      split at ended
      · rcases List.mem_append.mp ended with ended | same
        · exact .inl ended
        · exact .inr ⟨ending, List.mem_singleton.mp same ▸ rfl⟩
      · exact .inl ended
  | _ =>
      simp only [step] at ended
      repeat' split at ended
      all_goals exact .inl ended

theorem mem_ended_run {acts : List Act} {t : Ticket} (ended : t ∈ (shared.run acts).ended) :
    t ∈ shared.ended ∨ ∃ ending, .finish t ending ∈ acts := by
  induction acts generalizing shared with
  | nil => exact .inl ended
  | cons act acts ih =>
      rcases ih ended with ended | ⟨ending, mem⟩
      · refine (mem_ended_step ended).imp_right fun ⟨ending, same⟩ => ⟨ending, same ▸ .head _⟩
      · exact .inr ⟨ending, .tail _ mem⟩

/-! ## Promises -/

/-- What a pool promises of which a name and a size are asked for, at each moment.  A task starts when
it gets its slot. -/
structure Promises (name : String) (size : Nat) (shared : SharedPool) : Prop where
  /-- No more tasks run at once than there are slots. -/
  bounded : shared.pool.running.length ≤ max size 1
  /-- Every slot is free, or a task runs in it, or a shutdown has it. -/
  slots : shared.pool.free + shared.pool.running.length + shared.pool.reserved = max size 1
  /-- Outside shutdowns, as many slots are taken as tasks run. -/
  counted : shared.Idle → shared.pool.inFlight = shared.pool.running.length
  /-- A task starts at most once, and then it runs until it has given its slot back, once. -/
  once : shared.started.Nodup ∧ shared.started.Perm (shared.pool.running ++ shared.ended)
  /-- The caller of a task is told what came of it at most once: how it ended, or that it was turned
  away if it has not started. -/
  told : (shared.answers.map (·.1)).Nodup
    ∧ (∀ t ∈ shared.ended, ∃ ending : Ending, (t, ending.fault?) ∈ shared.answers)
    ∧ ∀ t fault, (t, fault) ∈ shared.answers → t ∉ shared.ended →
      t ∉ shared.started ∧ fault = some (.transport ("worker pool " ++ name ++ " is shut down"))
  /-- However a task ends, its slot is free again, and its caller learns of it. -/
  ends : ∀ t ∈ shared.pool.running, ∀ ending, shared.step (.finish t ending) = { shared with
    pool := { shared.pool with
      free := shared.pool.free + 1, running := shared.pool.running.erase t }
    ended := shared.ended ++ [t], answers := shared.answers ++ [(t, ending.fault?)] }
  /-- The caller of a task that breaks down is told so; to the pool it is an end as any other. -/
  breaks : ∀ t ∈ shared.pool.running, ∀ report,
    let broken := shared.step (.finish t (.brokeDown report))
    (t, some (.invocation ("worker task failed: " ++ report))) ∈ broken.answers
      ∧ broken.pool = (shared.step (.finish t .finished)).pool
  /-- Outside shutdowns, the first task that waits can start unless all slots are taken. -/
  goesOn : shared.Idle → shared.pool.running.length < max size 1 →
    ∀ t rest, shared.pool.tasks = t :: rest →
      (shared.step .serve).started = shared.started ++ [t] ∧ (shared.step .serve).pool.tasks = rest
  /-- As long as no shutdown has begun, a task that is submitted joins the line. -/
  accepts : shared.begun = [] → ∀ t ∉ shared.called,
    (shared.run [.submit t, .ask t]).pool.tasks = shared.pool.tasks ++ [t]
  /-- As long as no shutdown has begun, all tasks that wait start as those that run end, be it that
  every one of these breaks down. -/
  served : shared.begun = [] → ∀ ending, ∃ later,
    (∀ act ∈ later, act = .serve ∨ ∃ t, act = .finish t ending)
      ∧ (shared.run later).started = shared.asked
  /-- Tasks start in the order in which they asked for their slots, and as long as the pool is not
  closed, those that have not started wait in this order. -/
  ordered : shared.started <+: shared.asked
    ∧ (shared.pool.isClosed = false → shared.asked = shared.started ++ shared.pool.tasks)
  /-- A task that has asked for its slot starts before one that is submitted later. -/
  before : ∀ t ∈ shared.asked, ∀ u ∉ shared.called, ∀ later, u ∈ (shared.run later).started →
    [t, u].Sublist (shared.run later).started
  /-- A task that is submitted once a shutdown has begun is turned away and never starts. -/
  refuses : shared.begun ≠ [] → ∀ t ∉ shared.called, ∀ later,
    (t, some (.transport ("worker pool " ++ name ++ " is shut down")))
        ∈ (shared.run (.submit t :: later)).answers
      ∧ t ∉ (shared.run (.submit t :: later)).started
  /-- Once a shutdown is over, those that have not started are turned away, and none starts. -/
  stops : shared.past ≠ [] →
    (∀ t ∈ shared.asked, t ∉ shared.started →
      (t, some (.transport ("worker pool " ++ name ++ " is shut down"))) ∈ shared.answers)
    ∧ ∀ later, (shared.run later).started = shared.started
  /-- Tasks that run go on until they end, whatever happens. -/
  stays : ∀ t ∈ shared.pool.running, ∀ later, (∀ ending, .finish t ending ∉ later) →
    t ∈ (shared.run later).pool.running

namespace Sound

variable (sound : shared.Sound)

include sound

theorem count_started_le (t : Ticket) : shared.started.count t ≤ 1 := by
  have first := sound.accounts.first.sublist.count_le t
  have asks := sound.accounts.asks t
  have once := sound.accounts.count_called_le t
  omega

/-- A task that has started runs until it has ended. -/
theorem started_perm : shared.started.Perm (shared.pool.running ++ shared.ended) :=
  List.perm_iff_count.mpr fun t => (sound.accounts.starts t).trans List.count_append.symm

theorem nodup_answers : (shared.answers.map (·.1)).Nodup := by
  refine List.nodup_iff_count_le_one.mpr fun t => ?_
  have placed := sound.accounts.placed t
  have once := sound.accounts.count_called_le t
  omega

/-- A task that is told to be turned away does not start. -/
theorem not_started_of_refused {t : Ticket} (told : (t, some shared.pool.refusal) ∈ shared.answers) :
    t ∉ shared.started := by
  rcases sound.accounts.known _ told with ⟨-, ending, same⟩ | ⟨notStarted, -⟩
  · cases ending <;> exact nomatch same
  · exact notStarted

/-- As long as no shutdown has begun, a task that is submitted joins the line. -/
theorem tasks_submit (none : shared.begun = []) {t : Ticket} (new : t ∉ shared.called) :
    (shared.run [.submit t, .ask t]).pool.tasks = shared.pool.tasks ++ [t] := by
  obtain ⟨notShut, notClosed⟩ := sound.shutdowns.of_none none
  have enters : shared.step (.submit t) = { shared with
      called := shared.called ++ [t], entering := shared.entering ++ [t] } := by
    simp [SharedPool.step, new, notShut]
  show ((shared.step (.submit t)).step (.ask t)).pool.tasks = _
  rw [enters]
  simp [SharedPool.step, take, Pool.perform, Pool.request, Pool.tasks, notClosed]

/-- The first task that waits starts when it is served, if a slot is free. -/
theorem step_serve (idle : shared.Idle) (less : shared.pool.running.length < shared.pool.size)
    {t : Ticket} {rest : List Ticket} (waits : shared.pool.tasks = t :: rest) :
    (shared.step .serve).started = shared.started ++ [t]
      ∧ (shared.step .serve).pool.tasks = rest := by
  have waiting := waiting_eq_tasks (sound.shutdowns.of_idle idle).1
  have taken := sound.shutdowns.inFlight_eq sound.balanced idle
  have some : shared.pool.free ≠ 0 := by
    intro none
    rw [Pool.inFlight, none] at taken
    omega
  rw [waits, List.map_cons] at waiting
  rw [SharedPool.step, take, Pool.perform, Pool.serve, waiting]
  simp only [if_neg some]
  refine ⟨rfl, ?_⟩
  simp [Pool.tasks, List.filterMap_map, Function.comp_def]

/-- The first task that waits starts when it is served, if need be after another one has ended. -/
theorem exists_start (idle : shared.Idle) (size : 0 < shared.pool.size) {t : Ticket}
    {rest : List Ticket} (waits : shared.pool.tasks = t :: rest) (ending : Ending) :
    ∃ acts, (∀ act ∈ acts, act = .serve ∨ ∃ t, act = .finish t ending)
      ∧ (shared.run acts).Idle ∧ (shared.run acts).pool.isClosed = shared.pool.isClosed
      ∧ (shared.run acts).asked = shared.asked ∧ (shared.run acts).started = shared.started ++ [t]
      ∧ (shared.run acts).pool.tasks = rest := by
  have served (shared : SharedPool) : (shared.step .serve).pool.isClosed = shared.pool.isClosed :=
    (shared.pool.isClosed_perform .serve).trans (Bool.or_false _)
  by_cases less : shared.pool.running.length < shared.pool.size
  · exact ⟨[.serve], by simp, idle, served shared, rfl, sound.step_serve idle less waits⟩
  · -- all slots are taken, so a task runs that can end first
    have some := Nat.lt_of_lt_of_le size (Nat.not_lt.mp less)
    obtain ⟨other, runs⟩ := List.exists_mem_of_length_pos some
    have slots := sound.balanced.slots
    have sound' := sound.step (.finish other ending)
    have ends := step_finish runs ending
    rw [ends] at sound'
    have both : shared.run [.finish other ending, .serve] = SharedPool.step _ .serve :=
      congrArg (SharedPool.step · .serve) ends
    have less' : (shared.pool.running.erase other).length < shared.pool.size := by
      rw [List.length_erase_of_mem runs]
      omega
    refine ⟨[.finish other ending, .serve], by simp, ?_⟩
    rw [both]
    exact ⟨idle, served _, rfl, sound'.step_serve idle less' waits⟩

/-- Outside shutdowns all tasks that wait start, one after another. -/
theorem exists_start_all (idle : shared.Idle) (size : 0 < shared.pool.size)
    (notClosed : shared.pool.isClosed = false) (ending : Ending) :
    ∃ acts, (∀ act ∈ acts, act = .serve ∨ ∃ t, act = .finish t ending)
      ∧ (shared.run acts).started = shared.asked := by
  have ordered := sound.accounts.ordered notClosed
  generalize waits : shared.pool.tasks = tasks at ordered
  induction tasks generalizing shared with
  | nil => exact ⟨[], by simp, (ordered.trans (List.append_nil _)).symm⟩
  | cons t rest ih =>
      obtain ⟨acts, only, idle', closed, asked, started, waits'⟩ :=
        sound.exists_start idle size waits ending
      have size' : 0 < (shared.run acts).pool.size := by
        refine pool_run (P := fun pool => 0 < pool.size) (fun pool step some => ?_) acts size
        rwa [Pool.size_perform]
      have ordered' : (shared.run acts).asked = (shared.run acts).started ++ rest := by
        rw [asked, started, ordered, List.append_assoc]
        rfl
      obtain ⟨more, only', all⟩ :=
        ih (sound.run acts) idle' size' (closed.trans notClosed) waits' ordered'
      refine ⟨acts ++ more, fun act mem => (List.mem_append.mp mem).elim (only act) (only' act), ?_⟩
      rw [SharedPool.run, List.foldl_append]
      exact all.trans asked

/-- A task that has asked for its slot starts before one that has not been submitted. -/
theorem starts_before {t u : Ticket} (asked : t ∈ shared.asked) (new : u ∉ shared.called)
    (later : List Act) (started : u ∈ (shared.run later).started) :
    [t, u].Sublist (shared.run later).started := by
  have notAsked : u ∉ shared.asked := by
    intro asked
    have some := List.count_pos_iff.mpr asked
    have none := List.count_eq_zero.mpr new
    have asks := sound.accounts.asks u
    omega
  -- both those that had asked and those that have started are the first that have asked by now
  have grows := (grows_run shared later).asked
  have first := (sound.run later).accounts.first
  rcases List.prefix_or_prefix_of_prefix grows first with ⟨rest, parts⟩ | less
  · rw [← parts] at started ⊢
    have behind := (List.mem_append.mp started).resolve_left notAsked
    exact (List.singleton_sublist.mpr asked).append (List.singleton_sublist.mpr behind)
  · exact absurd (less.subset started) notAsked

/-- A task that is submitted to a pool that is shut down is turned away and never starts. -/
theorem submit_refused (begun : shared.begun ≠ []) {t : Ticket} (new : t ∉ shared.called)
    (later : List Act) :
    (t, some shared.pool.refusal) ∈ (shared.run (.submit t :: later)).answers
      ∧ t ∉ (shared.run (.submit t :: later)).started := by
  have shut := sound.shutdowns.marked.mpr begun
  have told : (t, some shared.pool.refusal) ∈ (shared.step (.submit t)).answers := by
    rw [SharedPool.step, if_neg new, if_pos shut]
    exact List.mem_append_right _ (.head _)
  have told := (grows_run (shared.step (.submit t)) later).answers.subset told
  have name := (grows_run shared (.submit t :: later)).name
  refine ⟨told, (sound.run (.submit t :: later)).not_started_of_refused ?_⟩
  rw [Pool.refusal, name]
  exact told

/-- Whoever waited when a shutdown came to its end was turned away. -/
theorem refused_of_past (past : shared.past ≠ []) {t : Ticket} (asked : t ∈ shared.asked)
    (notStarted : t ∉ shared.started) : (t, some shared.pool.refusal) ∈ shared.answers := by
  have quiet := sound.balanced.quiet (sound.shutdowns.closed.mpr past)
  rcases (sound.accounts.seen t asked).resolve_left notStarted with waits | told
  · rw [Pool.tasks, quiet] at waits
    exact absurd waits List.not_mem_nil
  · exact told

/-- A task that runs does so until it ends. -/
theorem mem_running_run {t : Ticket} (runs : t ∈ shared.pool.running) {later : List Act}
    (goesOn : ∀ ending, .finish t ending ∉ later) : t ∈ (shared.run later).pool.running := by
  have started := sound.started_perm.symm.subset (List.mem_append_left _ runs)
  have after := (grows_run shared later).started.subset started
  have places := List.mem_append.mp ((sound.run later).started_perm.subset after)
  refine places.resolve_right fun ended => ?_
  rcases mem_ended_run ended with ended | ⟨ending, mem⟩
  · have some := List.count_pos_iff.mpr runs
    have more := List.count_pos_iff.mpr ended
    have starts := sound.accounts.starts t
    have once := sound.count_started_le t
    omega
  · exact goesOn ending mem

/-- Where the accounts are right, the promises are kept. -/
theorem promises {name : String} {size : Nat} (named : shared.pool.name = name)
    (sized : shared.pool.size = max size 1) : shared.Promises name size := by
  have slots := sound.balanced.slots
  have refusal : shared.pool.refusal = .transport ("worker pool " ++ name ++ " is shut down") := by
    rw [Pool.refusal, named]
  rw [sized] at slots
  exact {
    bounded := by omega
    slots := slots
    counted := sound.shutdowns.inFlight_eq sound.balanced
    once := ⟨List.nodup_iff_count_le_one.mpr sound.count_started_le, sound.started_perm⟩
    told := by
      refine ⟨sound.nodup_answers, sound.accounts.told, fun t fault told notEnded => ?_⟩
      exact refusal ▸ (sound.accounts.known _ told).resolve_left fun ended => notEnded ended.1
    ends := fun t runs => step_finish runs
    breaks := fun t runs report => by
      rw [step_finish runs, step_finish runs]
      exact ⟨List.mem_append_right _ (.head _), rfl⟩
    goesOn := fun idle less t rest waits => sound.step_serve idle (sized.symm ▸ less) waits
    accepts := fun none t new => sound.tasks_submit none new
    served := fun none ending => by
      have idle : shared.Idle := fun s mem => absurd (none ▸ mem) List.not_mem_nil
      have some : 0 < shared.pool.size := sized ▸ Nat.lt_of_lt_of_le Nat.one_pos (Nat.le_max_right ..)
      exact sound.exists_start_all idle some (sound.shutdowns.of_none none).2 ending
    ordered := ⟨sound.accounts.first, sound.accounts.ordered⟩
    before := fun t asked u new later started => sound.starts_before asked new later started
    refuses := fun begun t new later => refusal ▸ sound.submit_refused begun new later
    stops := fun past => by
      refine ⟨fun t asked notStarted => refusal ▸ sound.refused_of_past past asked notStarted, ?_⟩
      exact sound.started_run (sound.shutdowns.closed.mpr past)
    stays := fun t runs later goesOn => sound.mem_running_run runs goesOn }

end Sound

theorem pool_run_start (name : String) (size : Nat) (acts : List Act) :
    ((start name size).run acts).pool.name = name
      ∧ ((start name size).run acts).pool.size = max size 1 := by
  refine pool_run (P := fun pool => pool.name = name ∧ pool.size = max size 1) ?_ acts ⟨rfl, rfl⟩
  intro pool step holds
  rwa [Pool.name_perform, Pool.size_perform]

/-- A pool keeps its promises in every run. -/
theorem promises_run (name : String) (size : Nat) (acts : List Act) :
    ((start name size).run acts).Promises name size :=
  have ⟨named, sized⟩ := pool_run_start name size acts
  ((sound_start name size).run acts).promises named sized

/-- A task that has looked before a shutdown began can ask for its slot after it, and start between
the moments when the shutdown gives the slots back and when it closes the pool. -/
example : ((start "p" 0).run [.submit 0, .ask 0, .serve, .submit 1, .shutDown 0, .submit 2,
      .drain 0, .ask 1, .finish 0 (.brokeDown ""), .serve, .release 0, .serve,
      .close 0 true]).started = [0, 1] := by
  decide

end RemoteCall.Workers.SharedPool
