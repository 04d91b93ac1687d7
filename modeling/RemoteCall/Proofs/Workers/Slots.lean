import Mathlib.Algebra.BigOperators.Group.List.Basic
import RemoteCall.Workers.Pool

/-! # No slot of a pool is lost

    Calls of a pool take single steps (`Step`), and those of several calls may
    come in any order.  Whatever the order, every slot is free, or a task runs
    in it, or a shutdown has it (`Balanced.perform`).  A shutdown in the line
    may have some of its slots already, so that it matters how many it lacks:
    never more than it asks for. -/

namespace RemoteCall.Workers

namespace Pool

/-- A single step of a pool. -/
inductive Step where
  /-- A task asks for its slot. -/
  | ask (ticket : Ticket)
  /-- A shutdown asks for all slots. -/
  | drain (ticket : Ticket)
  | serve
  | giveBack (ticket : Ticket)
  | announce
  | withdraw (ticket : Ticket)
  | release (ticket : Ticket)
  | close
  deriving DecidableEq

/-- Lets a pool take a step. -/
def perform (pool : Pool) : Step → List Notice × Pool
  | .ask ticket => pool.request (.task ticket)
  | .drain ticket => pool.request (.drain ticket pool.share)
  | .serve => pool.serve
  | .giveBack ticket => ([], pool.giveBack ticket)
  | .announce => ([], pool.announce)
  | .withdraw ticket => ([], pool.withdraw ticket)
  | .release ticket => ([], pool.release ticket)
  | .close => pool.close

/-- How many slots shutdowns have. -/
def reserved (pool : Pool) : Nat :=
  (pool.waiting.map (Waiter.held pool.share)).sum + pool.holding.length * pool.share

variable {pool : Pool}

/-! ## What steps keep -/

/-- A step changes neither the name of a pool nor how many slots there are; only a shutdown that
begins marks the pool, and only one that ends closes it. -/
theorem perform_keeps (pool : Pool) (step : Step) :
    let after := (pool.perform step).2
    after.name = pool.name ∧ after.size = pool.size
      ∧ after.isShutDown = (pool.isShutDown || step = .announce)
      ∧ after.isClosed = (pool.isClosed || step = .close) := by
  cases step <;> simp [perform, request, serve, giveBack, announce, withdraw, release, close]
    <;> repeat' split
  all_goals exact ⟨rfl, rfl, rfl, rfl⟩

theorem name_perform (pool : Pool) (step : Step) : (pool.perform step).2.name = pool.name :=
  (perform_keeps pool step).1

theorem size_perform (pool : Pool) (step : Step) : (pool.perform step).2.size = pool.size :=
  (perform_keeps pool step).2.1

theorem isShutDown_perform (pool : Pool) (step : Step) :
    (pool.perform step).2.isShutDown = (pool.isShutDown || step = .announce) :=
  (perform_keeps pool step).2.2.1

theorem isClosed_perform (pool : Pool) (step : Step) :
    (pool.perform step).2.isClosed = (pool.isClosed || step = .close) :=
  (perform_keeps pool step).2.2.2

/-! ## Slots -/

/-- Every slot is free, or a task runs in it, or a shutdown has it. -/
structure Balanced (pool : Pool) : Prop where
  slots : pool.free + pool.running.length + pool.reserved = pool.size
  short : ∀ ticket missing, .drain ticket missing ∈ pool.waiting → missing ≤ pool.share
  quiet : pool.isClosed = true → pool.waiting = []

theorem balanced_ofSize (name : String) (size : Nat) : (ofSize name size).Balanced where
  slots := by simp [ofSize, reserved]
  short _ _ mem := nomatch mem
  quiet closed := nomatch closed

/-- Who joins the line has no slot yet. -/
theorem Balanced.request (balanced : pool.Balanced) {waiter : Waiter}
    (bare : waiter.held pool.share = 0)
    (short : ∀ ticket missing, waiter = .drain ticket missing → missing ≤ pool.share) :
    (pool.request waiter).2.Balanced := by
  have slots := balanced.slots
  rw [Pool.request]
  split
  · exact balanced
  · next notClosed =>
      refine ⟨?_, ?_, fun closed => absurd closed notClosed⟩
      · rw [share] at bare
        simpa only [reserved, share, List.map_append, List.sum_append, List.map_singleton,
          List.sum_singleton, bare, Nat.add_zero] using slots
      · intro ticket missing mem
        rcases List.mem_append.mp mem with mem | mem
        · exact balanced.short ticket missing mem
        · exact short ticket missing (List.mem_singleton.mp mem).symm

theorem Balanced.serve (balanced : pool.Balanced) : pool.serve.2.Balanced := by
  obtain ⟨slots, short, quiet⟩ := balanced
  rw [Pool.serve]
  split
  · exact ⟨slots, short, quiet⟩
  · next ticket rest line =>
      split
      · exact ⟨slots, short, quiet⟩
      · next some =>
          rw [line] at short quiet
          refine ⟨?_, fun t m mem => short t m (.tail _ mem), fun closed => nomatch quiet closed⟩
          simp only [reserved, share, line, List.map_cons, List.sum_cons, Waiter.held,
            List.length_append, List.length_singleton] at slots ⊢
          omega
  · next ticket missing rest line =>
      rw [line] at short quiet
      have fits := short ticket missing (.head _)
      simp only [reserved, share, line, List.map_cons, List.sum_cons, Waiter.held] at slots fits
      split
      · next less =>
          refine ⟨?_, ?_, fun closed => nomatch quiet closed⟩
          · simp only [reserved, share, List.map_cons, List.sum_cons, Waiter.held]
            omega
          · intro t m mem
            rcases List.mem_cons.mp mem with same | mem
            · cases same
              exact Nat.le_trans (Nat.sub_le ..) fits
            · exact short t m (.tail _ mem)
      · next enough =>
          refine ⟨?_, fun t m mem => short t m (.tail _ mem), fun closed => nomatch quiet closed⟩
          simp only [reserved, share, List.length_append, List.length_singleton, Nat.add_mul,
            Nat.one_mul]
          omega

/-- What some of those who wait have, and what the others have. -/
theorem sum_held_filter (share : Nat) (p : Waiter → Bool) (waiting : List Waiter) :
    ((waiting.filter p).map (Waiter.held share)).sum
        + ((waiting.filter (!p ·)).map (Waiter.held share)).sum
      = (waiting.map (Waiter.held share)).sum := by
  rw [← List.sum_append, ← List.map_append]
  exact ((List.filter_append_perm p waiting).map _).sum_eq

/-- A slot that is given back is free. -/
theorem Balanced.giveBack (balanced : pool.Balanced) (ticket : Ticket) :
    (pool.giveBack ticket).Balanced := by
  obtain ⟨slots, short, quiet⟩ := balanced
  rw [Pool.giveBack]
  split
  · next mem =>
      have some := List.length_pos_of_mem mem
      refine ⟨?_, short, quiet⟩
      simp only [reserved, share, List.length_erase_of_mem mem] at slots ⊢
      omega
  · exact ⟨slots, short, quiet⟩

theorem Balanced.withdraw (balanced : pool.Balanced) (ticket : Ticket) :
    (pool.withdraw ticket).Balanced := by
  obtain ⟨slots, short, quiet⟩ := balanced
  have parts := sum_held_filter pool.share (Waiter.isDrain ticket) pool.waiting
  rw [Pool.withdraw, List.partition_eq_filter_filter]
  refine ⟨?_, fun t m mem => short t m (List.mem_filter.mp mem).1, fun closed => ?_⟩
  · simp only [reserved, share, Function.comp_def] at slots parts ⊢
    omega
  · simp [quiet closed]

theorem Balanced.release (balanced : pool.Balanced) (ticket : Ticket) :
    (pool.release ticket).Balanced := by
  obtain ⟨slots, short, quiet⟩ := balanced
  rw [Pool.release]
  split
  · next mem =>
      obtain ⟨others, length⟩ := Nat.exists_eq_succ_of_ne_zero
        (Nat.ne_of_gt (List.length_pos_of_mem mem))
      refine ⟨?_, short, quiet⟩
      simp only [reserved, share, List.length_erase_of_mem mem, length, Nat.succ_eq_add_one,
        Nat.add_mul, Nat.one_mul, Nat.add_sub_cancel] at slots ⊢
      omega
  · exact ⟨slots, short, quiet⟩

theorem Balanced.close (balanced : pool.Balanced) : pool.close.2.Balanced := by
  have slots := balanced.slots
  rw [Pool.close]
  refine ⟨?_, fun _ _ mem => (nomatch mem), fun _ => rfl⟩
  simp only [reserved, share, List.map_nil, List.sum_nil] at slots ⊢
  omega

/-- No step loses a slot. -/
theorem Balanced.perform (balanced : pool.Balanced) (step : Step) :
    (pool.perform step).2.Balanced := by
  cases step with
  | ask ticket => exact balanced.request rfl fun _ _ same => nomatch same
  | drain ticket =>
      refine balanced.request (Nat.sub_self _) fun _ _ same => ?_
      cases same
      exact Nat.le_refl _
  | serve => exact balanced.serve
  | giveBack ticket => exact balanced.giveBack ticket
  | announce => exact ⟨balanced.slots, balanced.short, balanced.quiet⟩
  | withdraw ticket => exact balanced.withdraw ticket
  | release ticket => exact balanced.release ticket
  | close => exact balanced.close

end Pool

end RemoteCall.Workers
