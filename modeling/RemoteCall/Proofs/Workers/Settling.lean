import RemoteCall.Proofs.Workers.Promises

/-! # Calls without others in between

    `Pool.submit`, `Pool.finish`, `Pool.beginShutdown` and `Pool.giveUp` let a
    call take its steps at once and then serve the line as far as there are
    free slots (`settled_settle`).  What each comes to is what some acts come
    to (`exists_comes_call`), and so a pool keeps its promises in every run of
    them (`promises_calls`). -/

namespace RemoteCall.Workers

/-! ## Nothing is left to be done -/

/-- Nobody waits, or there are no slots to have. -/
def Pool.Settled (pool : Pool) : Prop :=
  pool.waiting = [] ∨ pool.free = 0

namespace Pool

variable {pool : Pool}

theorem settled_serve (settled : pool.Settled) : pool.serve.2.Settled := by
  rw [Pool.serve]
  split
  · exact settled
  · next line =>
      split
      · exact settled
      · next some => exact absurd (settled.resolve_left (line ▸ List.cons_ne_nil _ _)) some
  · next line =>
      have none := settled.resolve_left (line ▸ List.cons_ne_nil _ _)
      split
      · exact .inr rfl
      · exact .inr (by simp [none])

theorem settled_leave (settled : pool.Settled) : pool.leave.2.Settled := by
  rw [leave]
  split
  · exact settled
  · exact .inl rfl

theorem length_waiting_leave_le (pool : Pool) :
    pool.leave.2.waiting.length ≤ pool.waiting.length := by
  rw [leave]
  split
  · exact Nat.le_refl _
  · exact Nat.zero_le _

/-- Whoever is served leaves the line, unless this uses up the free slots. -/
theorem serve_shortens (pool : Pool) :
    pool.serve.2.Settled ∨ pool.serve.2.waiting.length + 1 = pool.waiting.length := by
  rw [Pool.serve]
  split
  · next line => exact .inl (.inl line)
  · next line =>
      split
      · next none => exact .inl (.inr none)
      · exact .inr (by simp [line])
  · next line =>
      split
      · exact .inl (.inr rfl)
      · exact .inr (by simp [line])

theorem settled_rounds (rounds : Nat) (enough : pool.Settled ∨ pool.waiting.length ≤ rounds) :
    (Pool.rounds rounds pool).2.Settled := by
  induction rounds generalizing pool with
  | zero =>
      refine enough.elim id fun none => .inl ?_
      exact List.length_eq_zero_iff.mp (Nat.le_zero.mp none)
  | succ rounds ih =>
      refine @ih pool.round.2 ?_
      rcases enough with settled | enough
      · exact .inl (settled_leave (settled_serve settled))
      · rcases pool.serve_shortens with settled | shorter
        · exact .inl (settled_leave settled)
        · have less : pool.round.2.waiting.length ≤ pool.serve.2.waiting.length :=
            length_waiting_leave_le pool.serve.2
          exact .inr (by omega)

/-- Slots go to those who wait as far as they suffice. -/
theorem settled_settle (pool : Pool) : pool.settle.2.Settled :=
  settled_rounds _ (.inr (Nat.le_refl _))

end Pool

/-! ## The same steps -/

namespace SharedPool

/-- Acts that use some new tickets bring a shared pool to another state, and what they come to is what
a pool makes happen. -/
structure Comes (shared : SharedPool) (tickets : List Ticket) (made : List Notice × Pool)
    (after : SharedPool) : Prop where
  reached : ∃ acts, after = shared.run acts
  pool : after.pool = made.2
  started : after.started = shared.started ++ made.1.filterMap Notice.started?
  called : after.called ⊆ shared.called ++ tickets
  begun : after.begun ⊆ shared.begun ++ tickets

variable {shared after : SharedPool} {tickets : List Ticket}

theorem Comes.refl (shared : SharedPool) : shared.Comes [] ([], shared.pool) shared :=
  ⟨⟨[], rfl⟩, rfl, (List.append_nil _).symm, List.subset_append_left .., List.subset_append_left ..⟩

theorem Comes.trans {last : SharedPool} {others : List Ticket} {made more : List Notice × Pool}
    (first : shared.Comes tickets made after) (second : after.Comes others more last) :
    shared.Comes (tickets ++ others) (made.1 ++ more.1, more.2) last := by
  obtain ⟨⟨acts, rfl⟩, -, started, called, begun⟩ := first
  obtain ⟨⟨later, rfl⟩, pool, started', called', begun'⟩ := second
  refine ⟨⟨acts ++ later, (List.foldl_append ..).symm⟩, pool, ?_, ?_, ?_⟩
  · rw [started', started, List.filterMap_append, List.append_assoc]
  · rw [← List.append_assoc]
    exact List.Subset.trans called' (List.append_subset.mpr
      ⟨List.Subset.trans called (List.subset_append_left ..), List.subset_append_right ..⟩)
  · rw [← List.append_assoc]
    exact List.Subset.trans begun' (List.append_subset.mpr
      ⟨List.Subset.trans begun (List.subset_append_left ..), List.subset_append_right ..⟩)

/-- Acts between calls use no tickets. -/
theorem Comes.andThen {last : SharedPool} {made more : List Notice × Pool}
    (first : shared.Comes tickets made after) (second : after.Comes [] more last) :
    shared.Comes tickets (made.1 ++ more.1, more.2) last :=
  List.append_nil tickets ▸ first.trans second

theorem comes_serve (shared : SharedPool) : shared.Comes [] shared.pool.serve (shared.step .serve) :=
  ⟨⟨[.serve], rfl⟩, rfl, rfl, List.subset_append_left .., List.subset_append_left ..⟩

/-- A shutdown that has the slots gives them back and closes the pool. -/
theorem exists_comes_leave (shared : SharedPool) :
    ∃ after, shared.Comes [] shared.pool.leave after := by
  rw [Pool.leave]
  split
  · exact ⟨shared, .refl shared⟩
  · next s rest has =>
      have holding : s ∈ shared.pool.holding := has ▸ .head _
      refine ⟨shared.run [.release s, .close s true], ⟨_, rfl⟩, ?_, ?_, ?_, ?_⟩
      · simp [run, step, holding, take, Pool.perform]
      · simp [run, step, holding, take, Pool.perform, Pool.close, List.filterMap_cons]
      · simp [run, step, holding, take]
      · simp [run, step, holding, take]

theorem exists_comes_rounds (rounds : Nat) (shared : SharedPool) :
    ∃ after, shared.Comes [] (Pool.rounds rounds shared.pool) after := by
  induction rounds generalizing shared with
  | zero => exact ⟨shared, .refl shared⟩
  | succ rounds ih =>
      obtain ⟨left, leaves⟩ := exists_comes_leave (shared.step .serve)
      have round := shared.comes_serve.andThen leaves
      obtain ⟨last, rest⟩ := ih left
      rw [leaves.pool] at rest
      exact ⟨last, round.andThen rest⟩

theorem Comes.settle {made : List Notice × Pool} (first : shared.Comes tickets made after) :
    ∃ last, shared.Comes tickets (made.1 ++ made.2.settle.1, made.2.settle.2) last := by
  obtain ⟨last, rest⟩ := exists_comes_rounds after.pool.waiting.length after
  rw [first.pool] at rest
  exact ⟨last, first.andThen rest⟩

theorem comes_ask {t : Ticket} (entering : t ∈ shared.entering) :
    shared.Comes [] (shared.pool.request (.task t)) (shared.step (.ask t)) := by
  refine ⟨⟨[.ask t], rfl⟩, ?_, ?_, ?_, ?_⟩ <;> rw [step, if_pos entering]
  exacts [rfl, rfl, List.subset_append_left .., List.subset_append_left ..]

theorem comes_drain {s : Ticket} (announced : s ∈ shared.announced) :
    shared.Comes [] (shared.pool.request (.drain s shared.pool.share)) (shared.step (.drain s)) := by
  refine ⟨⟨[.drain s], rfl⟩, ?_, ?_, ?_, ?_⟩ <;> rw [step, if_pos announced]
  exacts [rfl, rfl, List.subset_append_left .., List.subset_append_left ..]

/-- A task is submitted. -/
theorem exists_comes_submit {t : Ticket} (new : t ∉ shared.called) :
    ∃ after, shared.Comes [t] (shared.pool.submit t) after := by
  rw [Pool.submit]
  split
  · next shut =>
      refine ⟨shared.step (.submit t), ⟨[.submit t], rfl⟩, ?_, ?_, ?_, ?_⟩
      all_goals simp [step, new, shut, List.filterMap_cons]
  · next notShut =>
      have enters : shared.Comes [t] ([], shared.pool) (shared.step (.submit t)) := by
        refine ⟨⟨[.submit t], rfl⟩, ?_, ?_, ?_, ?_⟩ <;> simp [step, new, notShut]
      have entering : t ∈ (shared.step (.submit t)).entering := by simp [step, new, notShut]
      have asks := comes_ask entering
      rw [enters.pool] at asks
      exact (enters.andThen asks).settle

/-- A task ends. -/
theorem exists_comes_finish (shared : SharedPool) (t : Ticket) :
    ∃ after, shared.Comes [] (shared.pool.finish t) after := by
  have ends : shared.Comes [] ([], shared.pool.giveBack t) (shared.step (.finish t .finished)) := by
    by_cases runs : t ∈ shared.pool.running
    · refine ⟨⟨[.finish t .finished], rfl⟩, ?_, ?_, ?_, ?_⟩ <;> rw [step_finish runs]
      · rw [Pool.giveBack, if_pos runs]
      · exact (List.append_nil _).symm
      · exact List.subset_append_left ..
      · exact List.subset_append_left ..
    · have nothing : shared.step (.finish t .finished) = shared := if_neg runs
      rw [Pool.giveBack, if_neg runs, nothing]
      exact .refl shared
  exact ends.settle

/-- A shutdown begins. -/
theorem exists_comes_beginShutdown {s : Ticket} (new : s ∉ shared.begun) :
    ∃ after, shared.Comes [s] (shared.pool.beginShutdown s) after := by
  have begins : shared.Comes [s] ([], shared.pool.announce) (shared.step (.shutDown s)) := by
    refine ⟨⟨[.shutDown s], rfl⟩, ?_, ?_, ?_, ?_⟩ <;> rw [step, if_neg new]
    exacts [rfl, rfl, List.subset_append_left .., List.Subset.refl _]
  have announced : s ∈ (shared.step (.shutDown s)).announced := by
    rw [step, if_neg new]
    exact List.mem_append_right _ (.head _)
  have drains := comes_drain announced
  rw [begins.pool] at drains
  exact (begins.andThen drains).settle

/-- The time of a shutdown is over. -/
theorem exists_comes_giveUp (shared : SharedPool) (s : Ticket) :
    ∃ after, shared.Comes [] (shared.pool.giveUp s) after := by
  rw [Pool.giveUp]
  split
  · next some =>
      have waits : s ∈ shared.pool.shutdowns := by
        obtain ⟨waiter, mem, own⟩ := List.any_eq_true.mp some
        refine List.mem_filterMap.mpr ⟨waiter, mem, ?_⟩
        cases waiter with
        | task t => exact nomatch own
        | drain u missing => exact congrArg Option.some (of_decide_eq_true own)
      refine ⟨shared.run [.giveUp s, .close s false], ⟨_, rfl⟩, ?_, ?_, ?_, ?_⟩
      · simp [run, step, waits, take, Pool.perform]
      · simp [run, step, waits, take, Pool.perform, Pool.close, List.filterMap_cons]
      · simp [run, step, waits, take]
      · simp [run, step, waits, take]
  · exact ⟨shared, .refl shared⟩

end SharedPool

/-! ## Runs -/

namespace Pool

/-- A call that takes its steps at once. -/
inductive Call where
  | submit (ticket : Ticket)
  | finish (ticket : Ticket)
  | beginShutdown (ticket : Ticket)
  | giveUp (ticket : Ticket)

/-- The tickets that a call is the first to use. -/
def Call.tickets : Call → List Ticket
  | .submit ticket => [ticket]
  | .finish _ => []
  | .beginShutdown ticket => [ticket]
  | .giveUp _ => []

/-- What a call makes happen. -/
def call (pool : Pool) : Call → List Notice × Pool
  | .submit ticket => pool.submit ticket
  | .finish ticket => pool.finish ticket
  | .beginShutdown ticket => pool.beginShutdown ticket
  | .giveUp ticket => pool.giveUp ticket

/-- What calls make happen, one after another. -/
def calls (pool : Pool) : List Call → List Notice × Pool
  | [] => ([], pool)
  | call :: rest =>
    let (notices, pool) := pool.call call
    let (more, pool) := calls pool rest
    (notices ++ more, pool)

end Pool

theorem SharedPool.exists_comes_call {shared : SharedPool} {call : Pool.Call}
    (new : ∀ t ∈ call.tickets, t ∉ shared.called ∧ t ∉ shared.begun) :
    ∃ after, shared.Comes call.tickets (shared.pool.call call) after := by
  cases call with
  | submit t => exact exists_comes_submit (new t (.head _)).1
  | finish t => exact shared.exists_comes_finish t
  | beginShutdown s => exact exists_comes_beginShutdown (new s (.head _)).2
  | giveUp s => exact shared.exists_comes_giveUp s

theorem SharedPool.exists_comes_calls {shared : SharedPool} {calls : List Pool.Call}
    (distinct : (calls.flatMap Pool.Call.tickets).Nodup)
    (new : ∀ t ∈ calls.flatMap Pool.Call.tickets, t ∉ shared.called ∧ t ∉ shared.begun) :
    ∃ after, shared.Comes (calls.flatMap Pool.Call.tickets) (shared.pool.calls calls) after := by
  induction calls generalizing shared with
  | nil => exact ⟨shared, .refl shared⟩
  | cons call calls ih =>
      rw [List.flatMap_cons] at distinct new ⊢
      obtain ⟨-, later, apart⟩ := List.nodup_append.mp distinct
      obtain ⟨after, first⟩ := exists_comes_call fun t mem => new t (List.mem_append_left _ mem)
      have new' : ∀ t ∈ calls.flatMap Pool.Call.tickets, t ∉ after.called ∧ t ∉ after.begun := by
        intro t mem
        have fresh := new t (List.mem_append_right _ mem)
        have other : t ∉ call.tickets := fun own => apart t own t mem rfl
        exact ⟨fun old => (List.mem_append.mp (first.called old)).elim fresh.1 other,
          fun old => (List.mem_append.mp (first.begun old)).elim fresh.2 other⟩
      obtain ⟨last, rest⟩ := ih later new'
      rw [first.pool] at rest
      exact ⟨last, first.trans rest⟩

/-- A pool keeps its promises in every run of calls without others in between. -/
theorem Pool.promises_calls (name : String) (size : Nat) {calls : List Call}
    (distinct : (calls.flatMap Call.tickets).Nodup) :
    ∃ shared : SharedPool, shared.Promises name size
      ∧ shared.pool = ((ofSize name size).calls calls).2
      ∧ shared.started = ((ofSize name size).calls calls).1.filterMap Notice.started? := by
  have new : ∀ t ∈ calls.flatMap Call.tickets,
      t ∉ (SharedPool.start name size).called ∧ t ∉ (SharedPool.start name size).begun :=
    fun t _ => ⟨List.not_mem_nil, List.not_mem_nil⟩
  obtain ⟨shared, ⟨acts, rfl⟩, pool, started, -, -⟩ := SharedPool.exists_comes_calls distinct new
  exact ⟨_, SharedPool.promises_run name size acts, pool, started⟩

end RemoteCall.Workers
