import Mathlib.Data.List.Induction
import RemoteCall.BufferPool

/-! # Lent buffers are clean and idle ones are few

    Every idle buffer is empty (`BufferPool.Clean`), because a buffer that comes
    back is emptied, whatever is in it (`clean_release`).  A pool also keeps no
    large buffer, and takes none back while it is full (`BufferPool.Tidy`).

    Borrowers ask for buffers, write into them, take the bytes out and give the
    buffers back, in any order (`Lending.Act`).  What an act does is told by the
    pool (`pool_perform`) and by what a borrower holds (`get?_perform`), and the
    latter does not depend on the pool but for the capacity: a borrower holds
    what was written since he got the buffer or last took the bytes out
    (`held_since`). -/

namespace RemoteCall

/-! ## Clean pools -/

namespace BufferPool

/-- Every idle buffer is empty. -/
def Clean (pool : BufferPool) : Prop :=
  ∀ buffer ∈ pool.idle, buffer.bytes = []

variable {pool : BufferPool}

theorem clean_ofSize (size : Nat) : (ofSize size).Clean := by
  intro buffer mem
  obtain ⟨-, rfl⟩ := List.mem_replicate.mp mem
  rfl

/-- A clean pool hands out empty buffers. -/
theorem bytes_acquire (clean : pool.Clean) : pool.acquire.1.bytes = [] := by
  rw [acquire]
  split
  · rfl
  · next buffer rest idle => exact clean buffer (by rw [idle]; exact List.mem_cons_self ..)

theorem clean_acquire (clean : pool.Clean) : pool.acquire.2.Clean := by
  rw [acquire]
  split
  · exact clean
  · next first rest idle =>
      intro buffer mem
      exact clean buffer (by rw [idle]; exact List.mem_cons_of_mem first mem)

/-- A buffer that comes back is emptied, whatever is in it. -/
theorem clean_release (clean : pool.Clean) (buffer : Buffer) : (pool.release buffer).Clean := by
  rw [release]
  split
  · intro other mem
    rcases List.mem_cons.mp mem with rfl | idle
    · rfl
    · exact clean other idle
  · exact clean

/-! ## Tidy pools -/

/-- A lent buffer is one idle buffer less, if there is one. -/
theorem available_acquire (pool : BufferPool) :
    pool.acquire.2.available = pool.available - 1 := by
  rw [acquire, available, available]
  split
  · next none => rw [none, List.length_nil]
  · next buffer rest idle => rw [idle, List.length_cons, Nat.add_sub_cancel]

/-- A buffer that comes back is one idle buffer more, unless it has grown too large or the pool is
full. -/
theorem available_release (pool : BufferPool) (buffer : Buffer) :
    (pool.release buffer).available
      = if buffer.capacity ≤ 65536 ∧ pool.available < 256 then pool.available + 1
        else pool.available := by
  have kept : pool.keeps buffer = true ↔ buffer.capacity ≤ 65536 ∧ pool.available < 256 := by
    rw [keeps, Bool.and_eq_true, decide_eq_true_eq, decide_eq_true_eq, keptCapacity, maxIdle]
  rw [release]
  by_cases keeps : pool.keeps buffer = true
  · rw [if_pos keeps, if_pos (kept.mp keeps)]
    rfl
  · rw [if_neg keeps, if_neg (kept.not.mp keeps)]

/-- Idle buffers are empty and small, and no more than there were at first, or than a pool keeps. -/
structure Tidy (size : Nat) (pool : BufferPool) : Prop where
  clean : pool.Clean
  small : ∀ buffer ∈ pool.idle, buffer.capacity ≤ 65536
  few : pool.available ≤ max size 256

theorem tidy_ofSize (size : Nat) : (ofSize size).Tidy size where
  clean := clean_ofSize size
  small := by
    intro buffer mem
    obtain ⟨-, rfl⟩ := List.mem_replicate.mp mem
    decide
  few := by
    rw [available, ofSize, List.length_replicate]
    exact Nat.le_max_left ..

theorem Tidy.acquire {size : Nat} (tidy : pool.Tidy size) : pool.acquire.2.Tidy size where
  clean := clean_acquire tidy.clean
  small := by
    intro buffer mem
    rw [BufferPool.acquire] at mem
    split at mem
    · exact tidy.small buffer mem
    · next first rest idle =>
        exact tidy.small buffer (by rw [idle]; exact List.mem_cons_of_mem first mem)
  few := by
    rw [available_acquire]
    exact Nat.le_trans (Nat.sub_le ..) tidy.few

theorem Tidy.release {size : Nat} (tidy : pool.Tidy size) (buffer : Buffer) :
    (pool.release buffer).Tidy size where
  clean := clean_release tidy.clean buffer
  small := by
    intro other mem
    rw [BufferPool.release] at mem
    split at mem
    · next keeps =>
        rcases List.mem_cons.mp mem with rfl | idle
        · exact of_decide_eq_true (Bool.and_eq_true_iff.mp keeps).1
        · exact tidy.small other idle
    · exact tidy.small other mem
  few := by
    have few := tidy.few
    rw [available_release]
    split
    · omega
    · exact few

end BufferPool

/-! ## Acts of borrowers -/

namespace Lending

/-- What a borrower does. -/
inductive Act where
  /-- He asks for a buffer. -/
  | acquire (borrower : String)
  | write (borrower : String) (bytes : Bytes)
  /-- He takes the bytes out. -/
  | take (borrower : String)
  /-- He gives the buffer back. -/
  | drop (borrower : String)

/-- Who acts. -/
def Act.borrower : Act → String
  | .acquire borrower => borrower
  | .write borrower _ => borrower
  | .take borrower => borrower
  | .drop borrower => borrower

/-- The bytes that a borrower writes with an act. -/
def Act.written (borrower : String) : Act → Bytes
  | .write other bytes => if other = borrower then bytes else []
  | _ => []

variable (lending : Lending)

/-- What an act comes to. -/
def perform : Act → Lending
  | .acquire borrower => lending.acquire borrower
  | .write borrower bytes => lending.write borrower bytes
  | .take borrower => (lending.take borrower).2
  | .drop borrower => lending.drop borrower

/-- What acts come to, one after another, with a pool of new buffers. -/
def run (size : Nat) (acts : List Act) : Lending :=
  acts.foldl perform (ofPool (.ofSize size))

theorem run_append (size : Nat) (acts more : List Act) :
    run size (acts ++ more) = more.foldl perform (run size acts) :=
  List.foldl_append

/-- The pool after somebody gave back what he holds. -/
theorem pool_drop (borrower : String) :
    (lending.drop borrower).pool
      = ((lending.held.get? borrower).map lending.pool.release).getD lending.pool := by
  rw [drop]
  cases lending.held.get? borrower <;> rfl

theorem get?_drop (borrower other : String) :
    (lending.drop borrower).held.get? other
      = if other = borrower then none else lending.held.get? other := by
  rw [drop]
  cases found : lending.held.get? borrower with
  | some buffer => exact Dictionary.get?_erase ..
  | none =>
      by_cases same : other = borrower
      · rw [if_pos same, same, found]
      · rw [if_neg same]

/-- A buffer is handed out before the one that the borrower still has comes back. -/
theorem pool_acquire (borrower : String) :
    (lending.acquire borrower).pool
      = ((lending.held.get? borrower).map lending.pool.acquire.2.release).getD
        lending.pool.acquire.2 :=
  pool_drop { lending with pool := lending.pool.acquire.2 } borrower

/-- Only getting and giving back a buffer changes the pool. -/
theorem pool_perform (act : Act) :
    (lending.perform act).pool = match act with
      | .acquire borrower => (lending.acquire borrower).pool
      | .drop borrower => (lending.drop borrower).pool
      | _ => lending.pool := by
  cases act with
  | acquire borrower => rfl
  | write borrower bytes =>
      rw [perform, write]
      cases lending.held.get? borrower <;> rfl
  | take borrower =>
      rw [perform, take]
      cases lending.held.get? borrower <;> rfl
  | drop borrower => rfl

/-- Changing what a borrower holds, if he holds something, changes nothing for the others. -/
theorem get?_change (held : Dictionary Buffer) (change : Buffer → Buffer)
    (borrower other : String) :
    ((held.get? borrower).elim held fun buffer => held.insert borrower (change buffer)).get? other
      = if other = borrower then (held.get? other).map change else held.get? other := by
  cases found : held.get? borrower with
  | some buffer =>
      rw [Option.elim_some, Dictionary.get?_insert]
      by_cases same : other = borrower
      · rw [if_pos same, if_pos same, same, found, Option.map_some]
      · rw [if_neg same, if_neg same]
  | none =>
      by_cases same : other = borrower
      · rw [Option.elim_none, if_pos same, same, found, Option.map_none]
      · rw [Option.elim_none, if_neg same]

/-- What a borrower holds after an act of his own or of somebody else. -/
theorem get?_perform (act : Act) (borrower : String) :
    (lending.perform act).held.get? borrower =
      if borrower = act.borrower then
        match act with
        | .acquire _ => some lending.pool.acquire.1
        | .write _ bytes => (lending.held.get? borrower).map (·.write bytes)
        | .take _ => (lending.held.get? borrower).map Buffer.clear
        | .drop _ => none
      else lending.held.get? borrower := by
  cases act with
  | acquire other =>
      show (Dictionary.insert (drop _ other).held other _).get? borrower
        = if borrower = other then some lending.pool.acquire.1 else lending.held.get? borrower
      rw [Dictionary.get?_insert, get?_drop]
      by_cases same : borrower = other
      · rw [if_pos same, if_pos same]
        rfl
      · rw [if_neg same, if_neg same, if_neg same]
  | write other bytes =>
      refine Eq.trans ?_ (get?_change lending.held (·.write bytes) other borrower)
      rw [perform, write]
      cases lending.held.get? other <;> rfl
  | take other =>
      refine Eq.trans ?_ (get?_change lending.held Buffer.clear other borrower)
      rw [perform, take]
      cases lending.held.get? other <;> rfl
  | drop other => exact lending.get?_drop other borrower

/-! ## Runs -/

theorem tidy_perform {size : Nat} {lending : Lending} (tidy : lending.pool.Tidy size) (act : Act) :
    (lending.perform act).pool.Tidy size := by
  rw [pool_perform]
  cases act with
  | acquire borrower =>
      dsimp only
      rw [pool_acquire]
      cases lending.held.get? borrower with
      | none => exact tidy.acquire
      | some buffer => exact tidy.acquire.release buffer
  | write borrower bytes => exact tidy
  | take borrower => exact tidy
  | drop borrower =>
      dsimp only
      rw [pool_drop]
      cases lending.held.get? borrower with
      | none => exact tidy
      | some buffer => exact tidy.release buffer

theorem tidy_run (size : Nat) (acts : List Act) : (run size acts).pool.Tidy size := by
  induction acts using List.reverseRecOn with
  | nil => exact BufferPool.tidy_ofSize size
  | append_singleton acts act ih =>
      rw [run_append]
      exact tidy_perform ih act

variable {lending : Lending}

/-- As long as a borrower only writes, he holds what he held and what he writes. -/
theorem held_foldl {borrower : String} {buffer : Buffer}
    (found : lending.held.get? borrower = some buffer) {acts : List Act}
    (writes : ∀ act ∈ acts, act.borrower = borrower → ∃ bytes, act = .write borrower bytes) :
    ∃ after, (acts.foldl perform lending).held.get? borrower = some after
      ∧ after.bytes = buffer.bytes ++ acts.flatMap (Act.written borrower) := by
  induction acts generalizing lending buffer with
  | nil => exact ⟨buffer, found, (List.append_nil _).symm⟩
  | cons act rest ih =>
      have writes' := fun other mem => writes other (.tail act mem)
      rw [List.flatMap_cons, ← List.append_assoc]
      by_cases own : act.borrower = borrower
      · obtain ⟨bytes, rfl⟩ := writes act (.head _) own
        have next := (lending.get?_perform (.write borrower bytes) borrower).trans (if_pos rfl)
        rw [found] at next
        obtain ⟨after, found, same⟩ := ih next writes'
        rw [Act.written, if_pos rfl]
        exact ⟨after, found, same⟩
      · have next := (lending.get?_perform act borrower).trans (if_neg (Ne.symm own))
        have silent : act.written borrower = [] := by
          cases act with
          | write other bytes => exact if_neg own
          | acquire other => rfl
          | take other => rfl
          | drop other => rfl
        rw [silent, List.append_nil]
        exact ih (next.trans found) writes'

theorem length_le_capacity_write (buffer : Buffer) (bytes : Bytes) :
    (buffer.write bytes).bytes.length ≤ (buffer.write bytes).capacity := by
  rw [Buffer.write, Buffer.fill, Buffer.grow]
  split
  · next fits => exact fits
  · exact Nat.le_max_right ..

/-- Bytes fit into the buffer that has them. -/
theorem length_le_capacity_run (size : Nat) (acts : List Act) {borrower : String} {buffer : Buffer}
    (found : (run size acts).held.get? borrower = some buffer) :
    buffer.bytes.length ≤ buffer.capacity := by
  induction acts using List.reverseRecOn generalizing buffer with
  | nil => exact nomatch found
  | append_singleton acts act ih =>
      rw [run_append, List.foldl_cons, List.foldl_nil, get?_perform] at found
      split at found
      · cases act with
        | acquire other =>
            obtain rfl := Option.some.inj found
            rw [BufferPool.bytes_acquire (tidy_run size acts).clean]
            exact Nat.zero_le _
        | write other bytes =>
            obtain ⟨before, -, rfl⟩ := Option.map_eq_some_iff.mp found
            exact length_le_capacity_write before bytes
        | take other =>
            obtain ⟨before, -, rfl⟩ := Option.map_eq_some_iff.mp found
            exact Nat.zero_le _
        | drop other => exact nomatch found
      · exact ih found

/-- What stands last in a list, with nothing of a kind behind it, is the last item or was so
before. -/
theorem exists_last_concat_iff {α : Type} {a b last : α} {items : List α} :
    (∃ before since, items ++ [last] = before ++ a :: since ∧ b ∉ since)
      ↔ last = a ∨ last ≠ b ∧ ∃ before since, items = before ++ a :: since ∧ b ∉ since := by
  constructor
  · rintro ⟨before, since, eq, none⟩
    rcases List.eq_nil_or_concat since with rfl | ⟨since, other, rfl⟩
    · exact .inl (List.cons.inj (List.append_inj' eq rfl).2).1
    · rw [List.concat_eq_append, ← List.cons_append, ← List.append_assoc] at eq
      obtain ⟨rfl, same⟩ := List.append_inj' eq rfl
      obtain rfl := (List.cons.inj same).1
      rw [List.concat_eq_append, List.mem_append, List.mem_singleton, not_or] at none
      exact .inr ⟨Ne.symm none.2, before, since, rfl, none.1⟩
  · rintro (rfl | ⟨other, before, since, rfl, none⟩)
    · exact ⟨items, [], rfl, List.not_mem_nil⟩
    · refine ⟨before, since ++ [last], by simp, ?_⟩
      rw [List.mem_append, List.mem_singleton, not_or]
      exact ⟨none, Ne.symm other⟩

/-- Who has got a buffer and has not given it back holds one. -/
theorem isSome_held_iff (size : Nat) (acts : List Act) (borrower : String) :
    ((run size acts).held.get? borrower).isSome
      ↔ ∃ before since, acts = before ++ .acquire borrower :: since
        ∧ .drop borrower ∉ since := by
  induction acts using List.reverseRecOn with
  | nil => simp [run, ofPool]
  | append_singleton acts act ih =>
      rw [exists_last_concat_iff, ← ih, run_append, List.foldl_cons, List.foldl_nil, get?_perform]
      by_cases own : borrower = act.borrower
      · subst own
        rw [if_pos rfl]
        cases act <;> simp [Act.borrower]
      · have first : act ≠ .acquire borrower := fun same => own (same ▸ rfl)
        have last : act ≠ .drop borrower := fun same => own (same ▸ rfl)
        rw [if_neg own, or_iff_right first, and_iff_right last]

/-! ## What borrowers get -/

/-- What a pool lends and keeps, and what its borrowers hold, after some acts. -/
structure Lends (size : Nat) (acts : List Act) (lending : Lending) : Prop where
  held_iff : ∀ borrower, (lending.held.get? borrower).isSome
    ↔ ∃ before since, acts = before ++ .acquire borrower :: since ∧ .drop borrower ∉ since
  /-- Who asks for a buffer gets an empty one. -/
  acquired : ∀ borrower, ∃ buffer, (lending.acquire borrower).held.get? borrower = some buffer
    ∧ buffer.bytes = []
  /-- A buffer has the bytes that were written since the borrower got it, or since he last took the
  bytes out. -/
  held_since : ∀ before start since borrower, acts = before ++ start :: since →
    (start = .acquire borrower
      ∨ start = .take borrower ∧ ((run size before).held.get? borrower).isSome) →
    (∀ act ∈ since, act.borrower = borrower → ∃ bytes, act = .write borrower bytes) →
    ∃ buffer, lending.held.get? borrower = some buffer
      ∧ buffer.bytes = since.flatMap (Act.written borrower)
  fits : ∀ borrower buffer, lending.held.get? borrower = some buffer →
    buffer.bytes.length ≤ buffer.capacity
  /-- To take the bytes out gives just these, and leaves the pool and the other borrowers alone. -/
  taken : ∀ borrower buffer, lending.held.get? borrower = some buffer →
    (lending.take borrower).1 = some buffer.bytes ∧ (lending.take borrower).2.pool = lending.pool
      ∧ ∀ other, (lending.take borrower).2.held.get? other
        = if other = borrower then some ⟨[], buffer.capacity⟩ else lending.held.get? other
  /-- A buffer that is handed out is an idle one less, if there is one. -/
  acquire_lowers : ∀ borrower, lending.held.get? borrower = none →
    (lending.acquire borrower).pool.available = lending.pool.available - 1
  /-- One that the borrower still has comes back after that. -/
  acquire_returns : ∀ borrower buffer, lending.held.get? borrower = some buffer →
    (lending.acquire borrower).pool = lending.pool.acquire.2.release buffer
  /-- A buffer that is given back is an idle one more, if it is small and few are idle. -/
  drop_raises : ∀ borrower buffer, lending.held.get? borrower = some buffer →
    (lending.drop borrower).pool.available
      = if buffer.capacity ≤ 65536 ∧ lending.pool.available < 256 then lending.pool.available + 1
        else lending.pool.available
  write_keeps : ∀ borrower bytes, (lending.write borrower bytes).pool = lending.pool
  few : lending.pool.available ≤ max size 256
  idle : ∀ buffer ∈ lending.pool.idle, buffer.bytes = [] ∧ buffer.capacity ≤ 65536

/-- Whatever borrowers do, with any number of them and in any order: they get empty buffers and find
in them what they have written, and the idle buffers are empty, small and few. -/
theorem lends_of_run (size : Nat) (acts : List Act) : Lends size acts (run size acts) := by
  have tidy := tidy_run size acts
  refine
    { held_iff := isSome_held_iff size acts
      acquired := fun borrower => ?acquired
      held_since := ?held_since
      fits := fun borrower buffer held => length_le_capacity_run size acts held
      taken := fun borrower buffer held =>
        ⟨?taken, pool_perform _ (.take borrower), fun other => ?left⟩
      acquire_lowers := fun borrower none => ?acquire_lowers
      acquire_returns := fun borrower buffer held => ?acquire_returns
      drop_raises := fun borrower buffer held => ?drop_raises
      write_keeps := fun borrower bytes => pool_perform _ (.write borrower bytes)
      few := tidy.few
      idle := fun buffer mem => ⟨tidy.clean buffer mem, tidy.small buffer mem⟩ }
  case acquired =>
    exact ⟨_, (get?_perform _ (.acquire borrower) borrower).trans (if_pos rfl),
      BufferPool.bytes_acquire tidy.clean⟩
  case held_since =>
    rintro before start since borrower rfl starts writes
    rw [run_append, List.foldl_cons]
    have clean := (tidy_run size before).clean
    -- either way the borrower then holds a buffer without bytes
    obtain ⟨buffer, found, empty⟩ : ∃ buffer,
        ((run size before).perform start).held.get? borrower = some buffer ∧ buffer.bytes = [] := by
      rcases starts with rfl | ⟨rfl, held⟩
      · exact ⟨_, (get?_perform _ (.acquire borrower) borrower).trans (if_pos rfl),
          BufferPool.bytes_acquire clean⟩
      · obtain ⟨buffer, held⟩ := Option.isSome_iff_exists.mp held
        refine ⟨buffer.clear, ?_, rfl⟩
        refine (get?_perform _ (.take borrower) borrower).trans ((if_pos rfl).trans ?_)
        rw [held, Option.map_some]
    obtain ⟨after, found, same⟩ := held_foldl found writes
    rw [empty, List.nil_append] at same
    exact ⟨after, found, same⟩
  case taken =>
    rw [take, held]
    rfl
  case left =>
    have after := get?_perform (run size acts) (.take borrower) other
    refine after.trans ?_
    show (if other = borrower then _ else _) = _
    split
    · next same => rw [same, held]; rfl
    · rfl
  case acquire_lowers =>
    rw [pool_acquire, none, Option.map_none, Option.getD_none, BufferPool.available_acquire]
  case acquire_returns =>
    rw [pool_acquire, held, Option.map_some, Option.getD_some]
  case drop_raises =>
    rw [pool_drop, held, Option.map_some, Option.getD_some, BufferPool.available_release]

end Lending

end RemoteCall
