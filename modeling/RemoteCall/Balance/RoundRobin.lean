import RemoteCall.Bytes

/-!
# Weighted round robin

The selections for a key are counted. Members take turns in rounds; each round every member of
positive weight that is left comes once and spends one unit of its weight. The pick at a count is the
member that comes at this count, taken modulo the sum of the positive weights.

Members that all weigh the same, or among which none has a positive weight, come in the order of the
list.
-/

namespace RemoteCall.Balance.RoundRobin

variable {α : Type}

/-- The members left after a round in which each spends one unit. -/
def spend (live : List (α × Nat)) : List (α × Nat) :=
  live.filterMap fun member => if 1 < member.2 then some (member.1, member.2 - 1) else none

/-- The member that comes behind `offset` others, within a number of rounds. -/
def walk : Nat → Nat → List (α × Nat) → Option α
  | 0, _, _ => none
  | rounds + 1, offset, live =>
    if offset < live.length then live[offset]?.map (·.1)
    else walk rounds (offset - live.length) (spend live)

/-- The members of positive weight. -/
def live (members : List (α × Int32)) : List (α × Nat) :=
  members.filterMap fun member =>
    if 0 < member.2 then some (member.1, member.2.toInt.toNat) else none

/-- The largest of the weights and zero. -/
def largest (members : List (α × Int32)) : Int32 :=
  members.foldl (fun most member => max most member.2) 0

/-- The smallest of the weights. -/
def smallest (members : List (α × Int32)) : Int32 :=
  members.foldl (fun least member => min least member.2) Int32.maxValue

/-- Whether the members come by weight. -/
def isWeighted (members : List (α × Int32)) : Bool :=
  0 < largest members && smallest members < largest members

/-- The member in the order of the list. -/
def plain (members : List (α × Int32)) (count : Nat) : Option α :=
  members[count % members.length]?.map (·.1)

/-- The pick at a count. -/
def pick (members : List (α × Int32)) (count : Nat) : Option α :=
  if isWeighted members then
    let live := live members
    let sum := (live.map (·.2)).sum
    (walk (largest members).toInt.toNat (count % sum) live).or (plain members count)
  else plain members count

end RemoteCall.Balance.RoundRobin
