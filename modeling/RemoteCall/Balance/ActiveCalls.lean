import RemoteCall.Bytes
import RemoteCall.Dictionary

/-!
# Calls in progress

For each address, how many calls to it have begun and not ended.

The best members of a list are those with the fewest calls in progress, and among these those of the
greatest weight. One pass over the list finds them (`LeastActive.best`).
-/

namespace RemoteCall.Balance

/-! ## Counting -/

/-- Numbers of calls by address. -/
structure ActiveCalls where
  counts : Dictionary Nat

namespace ActiveCalls

/-- No call has begun. -/
def empty : ActiveCalls := ⟨.empty⟩

/-- How many calls to an address are in progress. -/
def count (active : ActiveCalls) (address : String) : Nat :=
  (active.counts.get? address).getD 0

/-- A call to an address begins. -/
def start (active : ActiveCalls) (address : String) : ActiveCalls :=
  ⟨active.counts.insert address (active.count address + 1)⟩

/-- A call to an address ends. -/
def finish (active : ActiveCalls) (address : String) : ActiveCalls :=
  ⟨active.counts.insert address (active.count address - 1)⟩

/-- How many calls are in progress. -/
def total (active : ActiveCalls) : Nat :=
  active.counts.values.sum

theorem count_start (active : ActiveCalls) (address other : String) :
    (active.start address).count other =
      active.count other + if other = address then 1 else 0 := by
  rw [start, count, Dictionary.get?_insert]
  split
  · next eq => simp [eq]
  · simp [count]

theorem count_finish (active : ActiveCalls) (address other : String) :
    (active.finish address).count other =
      active.count other - if other = address then 1 else 0 := by
  rw [finish, count, Dictionary.get?_insert]
  split
  · next eq => simp [eq]
  · simp [count]

end ActiveCalls

/-! ## Selection by calls in progress -/

namespace LeastActive

variable {α : Type}

/-- The best members so far, with their common number of calls and weight. -/
structure Best (α : Type) where
  members : List α
  active : Nat
  weight : Int32

/-- No member was seen: any member is at least as good. -/
def Best.start : Best α := ⟨[], 2 ^ 64 - 1, Int32.minValue⟩

/-- The best members after one more, given with its number of calls and its weight. -/
def Best.add (best : Best α) (member : α) (active : Nat) (weight : Int32) : Best α :=
  if active < best.active || active = best.active && best.weight < weight then
    ⟨[member], active, weight⟩
  else if active = best.active && weight = best.weight then
    { best with members := best.members ++ [member] }
  else best

/-- The best members of a list, in its order; each is given with its number of calls and its
weight. -/
def best (members : List (α × Nat × Int32)) : List α :=
  (members.foldl (fun best member => best.add member.1 member.2.1 member.2.2) Best.start).members

end LeastActive

end RemoteCall.Balance
