import Mathlib.Data.List.Induction
import RemoteCall.Balance.ActiveCalls

/-! # Guards of calls

    A call in progress has a guard, and the end of the call drops it
    (`Event`).  A guard can be dropped once, after its call began; beyond
    that, calls begin and end in any order (`CanHappen`).

    A guard has a place of its own from the beginning of its call on, so that
    the guards after some events can be told from the events alone (`kept`).
    Each event that can follow keeps the counters at the numbers of these
    guards (`Tells.perform`), and so do all events that can happen
    (`exists_run`): a counter is positive where a guard of its address is
    dropped (`Tells.pos_of_drop`). -/

namespace RemoteCall.Balance.ActiveCalls

/-! ## Events -/

/-- What happens to calls. -/
inductive Event where
  /-- A call to an address begins and has the next guard; guards are numbered from zero. -/
  | start (address : String)
  /-- A guard is dropped. -/
  | drop (guard : Nat)
  deriving DecidableEq

/-- The addresses of the calls that began. -/
def begun (events : List Event) : List String :=
  events.filterMap fun
    | .start address => some address
    | .drop _ => none

/-- The guards of the calls that began, each with its address if it was not dropped. -/
def kept (events : List Event) : List (Option String) :=
  (begun events).mapIdx fun guard address => if .drop guard ∈ events then none else some address

/-- How many calls to an address began whose guard was not dropped. -/
def inProgress (events : List Event) (address : String) : Nat :=
  (kept events).count (some address)

/-- How many guards an address can have: each refers to the counter of the address, as the table of
counters does, and a counter with more than `2 ^ 63` references ends the program. -/
def mostGuards : Nat := 2 ^ 63 - 1

/-- Whether an event can come after some others: a guard is dropped once, and after its call began. -/
def Follows (before : List Event) : Event → Prop
  | .start address => inProgress before address < mostGuards
  | .drop guard => guard < (begun before).length ∧ .drop guard ∉ before

/-- Whether events can happen one after another. -/
def CanHappen (events : List Event) : Prop :=
  ∀ before event, before ++ [event] <+: events → Follows before event

instance (before : List Event) : (event : Event) → Decidable (Follows before event)
  | .start _ => inferInstanceAs (Decidable (_ < _))
  | .drop _ => inferInstanceAs (Decidable (_ ∧ _))

theorem canHappen_iff {events : List Event} :
    CanHappen events ↔ ∀ i, (less : i < events.length) → Follows (events.take i) events[i] := by
  constructor
  · intro can i less
    refine can _ _ ?_
    rw [List.take_append_getElem less]
    exact List.take_prefix (i + 1) events
  · rintro each before event ⟨after, rfl⟩
    have follows := each before.length (by simp)
    simpa using follows

instance (events : List Event) : Decidable (CanHappen events) :=
  decidable_of_iff _ canHappen_iff.symm

/-- The calls in progress with their guards. -/
structure Guarded where
  active : ActiveCalls
  /-- The guards in the order of the calls, each with its address until it is dropped. -/
  guards : List (Option String)

namespace Guarded

/-- No call has begun. -/
def empty : Guarded := ⟨.empty, []⟩

/-- What comes of an event; a guard that is not there is not dropped. -/
def perform (calls : Guarded) : Event → Option Guarded
  | .start address =>
    if calls.guards.count (some address) < mostGuards then
      some ⟨calls.active.start address, calls.guards ++ [some address]⟩
    else none
  | .drop guard =>
    calls.guards[guard]?.join.map fun address =>
      ⟨calls.active.finish address, calls.guards.set guard none⟩

/-- What comes of events one after another. -/
def run (events : List Event) : Option Guarded :=
  events.foldlM perform empty

variable {calls next : Guarded} {events : List Event} {event : Event}

theorem run_concat (events : List Event) (event : Event) :
    run (events ++ [event]) = (run events).bind (·.perform event) := by
  rw [run, List.foldlM_append]
  show (run events).bind (fun calls => (calls.perform event).bind fun next => some next) = _
  simp only [Option.bind_fun_some]

theorem perform_start_iff {address : String} :
    calls.perform (.start address) = some next
      ↔ calls.guards.count (some address) < mostGuards
        ∧ next = ⟨calls.active.start address, calls.guards ++ [some address]⟩ := by
  rw [perform, Option.ite_none_right_eq_some, Option.some.injEq, eq_comm (b := next)]

theorem perform_drop_iff {guard : Nat} :
    calls.perform (.drop guard) = some next
      ↔ ∃ address, calls.guards[guard]? = some (some address)
        ∧ next = ⟨calls.active.finish address, calls.guards.set guard none⟩ := by
  rw [perform, Option.map_eq_some_iff]
  simp only [Option.join_eq_some_iff, eq_comm (b := next)]

end Guarded

/-! ## Guards -/

variable {events : List Event} {event : Event}

theorem canHappen_concat_iff :
    CanHappen (events ++ [event]) ↔ CanHappen events ∧ Follows events event := by
  simp only [CanHappen, List.prefix_concat_iff]
  constructor
  · intro can
    exact ⟨fun before other begins => can before other (.inr begins),
      can events event (.inl rfl)⟩
  · rintro ⟨can, follows⟩ before other (same | begins)
    · obtain ⟨rfl, rfl⟩ := List.append_singleton_inj.mp same
      exact follows
    · exact can before other begins

theorem begun_concat_start (events : List Event) (address : String) :
    begun (events ++ [.start address]) = begun events ++ [address] := by
  rw [begun, List.filterMap_append]
  rfl

theorem begun_concat_drop (events : List Event) (guard : Nat) :
    begun (events ++ [.drop guard]) = begun events := by
  rw [begun, List.filterMap_append]
  exact List.append_nil _

/-- Guards are dropped of calls that began. -/
theorem lt_of_drop (can : CanHappen events) {guard : Nat} (dropped : .drop guard ∈ events) :
    guard < (begun events).length := by
  induction events using List.reverseRecOn with
  | nil => exact nomatch dropped
  | append_singleton events event ih =>
      obtain ⟨can, follows⟩ := canHappen_concat_iff.mp can
      rcases List.mem_append.mp dropped with before | last
      · have := ih can before
        cases event with
        | start address =>
            rw [begun_concat_start, List.length_append]
            omega
        | drop other => rwa [begun_concat_drop]
      · rw [List.mem_singleton] at last
        subst last
        rw [begun_concat_drop]
        exact follows.1

theorem getElem?_kept (events : List Event) (guard : Nat) :
    (kept events)[guard]?
      = (begun events)[guard]?.map fun address =>
        if .drop guard ∈ events then none else some address :=
  List.getElem?_mapIdx

/-- A call that begins has a new guard. -/
theorem kept_concat_start (can : CanHappen events) (address : String) :
    kept (events ++ [.start address]) = kept events ++ [some address] := by
  -- the number of the new guard was not dropped before, since its call had not begun
  have new : .drop (begun events).length ∉ events := fun dropped =>
    Nat.lt_irrefl _ (lt_of_drop can dropped)
  have same (guard : Nat) :
      Event.drop guard ∈ events ++ [Event.start address] ↔ Event.drop guard ∈ events := by
    simp
  simp only [kept, begun_concat_start, List.mapIdx_concat, same, new, if_false]

/-- A guard that is dropped is the only one that is not kept. -/
theorem kept_concat_drop (events : List Event) (guard : Nat) :
    kept (events ++ [.drop guard]) = (kept events).set guard none := by
  refine List.ext_getElem? fun other => ?_
  rw [getElem?_kept, begun_concat_drop, List.getElem?_set, getElem?_kept]
  by_cases own : guard = other
  · subst own
    have length : (kept events).length = (begun events).length := List.length_mapIdx
    simp only [List.mem_concat_self, if_true, length]
    split
    · next there => rw [List.getElem?_eq_getElem there, Option.map_some]
    · next none => rw [List.getElem?_eq_none (Nat.not_lt.mp none), Option.map_none]
  · have same : Event.drop other ∈ events ++ [Event.drop guard] ↔ Event.drop other ∈ events := by
      simp [Ne.symm own]
    rw [if_neg own]
    simp only [same]

/-- A guard that can be dropped is kept before. -/
theorem exists_kept {guard : Nat} (follows : Follows events (.drop guard)) :
    ∃ address, (kept events)[guard]? = some (some address) := by
  obtain ⟨there, left⟩ := follows
  refine ⟨(begun events)[guard], ?_⟩
  rw [getElem?_kept, List.getElem?_eq_getElem there, Option.map_some, if_neg left]

theorem inProgress_concat_start (can : CanHappen events) (own other : String) :
    inProgress (events ++ [.start own]) other
      = inProgress events other + if other = own then 1 else 0 := by
  rw [inProgress, kept_concat_start can, List.count_append, List.count_singleton, ← inProgress]
  simp only [beq_iff_eq, Option.some.injEq, eq_comm (a := other)]

theorem inProgress_concat_drop {guard : Nat} {own : String}
    (at' : (kept events)[guard]? = some (some own)) (other : String) :
    inProgress (events ++ [.drop guard]) other
      = inProgress events other - if other = own then 1 else 0 := by
  obtain ⟨less, same⟩ := List.getElem?_eq_some_iff.mp at'
  rw [inProgress, kept_concat_drop, List.count_set less, same, ← inProgress]
  simp [eq_comm (a := other)]

/-! ## Counters -/

/-- The counters tell of the guards, and these of what happened. -/
structure Guarded.Tells (calls : Guarded) (events : List Event) : Prop where
  guards : calls.guards = kept events
  count : ∀ address, calls.active.count address = inProgress events address
  few : ∀ address, inProgress events address ≤ mostGuards

namespace Guarded

variable {calls : Guarded}

/-- An event that can follow leads on, and the counters tell of it. -/
theorem Tells.perform (tells : calls.Tells events) (can : CanHappen events)
    (follows : Follows events event) :
    ∃ next, calls.perform event = some next ∧ next.Tells (events ++ [event]) := by
  cases event with
  | start address =>
      have fewer : calls.guards.count (some address) < mostGuards := by
        rw [tells.guards]
        exact follows
      refine ⟨_, perform_start_iff.mpr ⟨fewer, rfl⟩, ?_, fun other => ?_, fun other => ?_⟩
      · rw [kept_concat_start can, ← tells.guards]
      · rw [count_start, tells.count, inProgress_concat_start can]
      · rw [inProgress_concat_start can]
        split
        · next same => exact same ▸ follows
        · exact tells.few other
  | drop guard =>
      obtain ⟨address, at'⟩ := exists_kept follows
      have there : calls.guards[guard]? = some (some address) := by
        rw [tells.guards]
        exact at'
      refine ⟨_, perform_drop_iff.mpr ⟨address, there, rfl⟩, ?_, fun other => ?_, fun other => ?_⟩
      · rw [kept_concat_drop, ← tells.guards]
      · rw [count_finish, tells.count, inProgress_concat_drop at']
      · rw [inProgress_concat_drop at']
        exact Nat.le_trans (Nat.sub_le _ _) (tells.few other)

/-- Events that can happen lead to counters that tell of them. -/
theorem exists_run (can : CanHappen events) :
    ∃ calls, run events = some calls ∧ calls.Tells events := by
  induction events using List.reverseRecOn with
  | nil => exact ⟨empty, rfl, rfl, fun _ => rfl, fun _ => Nat.zero_le _⟩
  | append_singleton events event ih =>
      obtain ⟨can, follows⟩ := canHappen_concat_iff.mp can
      obtain ⟨calls, ran, tells⟩ := ih can
      obtain ⟨next, performed, tells⟩ := tells.perform can follows
      refine ⟨next, ?_, tells⟩
      rw [run_concat, ran]
      exact performed

/-- A guard that can be dropped is counted. -/
theorem Tells.pos_of_drop (tells : calls.Tells events) {guard : Nat}
    (follows : Follows events (.drop guard)) :
    ∃ address, calls.guards[guard]? = some (some address) ∧ 0 < calls.active.count address := by
  obtain ⟨address, at'⟩ := exists_kept follows
  refine ⟨address, tells.guards ▸ at', ?_⟩
  rw [tells.count, inProgress, List.count_pos_iff]
  exact List.mem_of_getElem? at'

end Guarded

end RemoteCall.Balance.ActiveCalls
