import RemoteCall.Balance.Basic
import RemoteCall.Bytes

/-!
# Weighted random selection

A number below the sum of the weights is drawn, and the weights are taken off it one after another; the
member that brings it below zero is selected. Members that all weigh the same, or whose weights have
no positive sum, are equally likely.

`candidates` lists the members that the draws can lead to.
-/

namespace RemoteCall.Balance.Random

variable {α : Type}

/-- The sum of the weights. -/
def total (members : List (α × Int32)) : Int :=
  (members.map fun member => member.2.toInt).sum

/-- Whether all members weigh the same. -/
def sameWeight : List (α × Int32) → Bool
  | a :: b :: rest => a.2 = b.2 && sameWeight (b :: rest)
  | _ => true

/-- The member whose weight brings a number below zero. -/
def walk : Int → List (α × Int32) → Option α
  | _, [] => none
  | offset, member :: rest =>
    let offset := offset - member.2.toInt
    if offset < 0 then some member.1 else walk offset rest

/-- Selects a member. -/
def choose (members : List (α × Int32)) : Choice (Option α) :=
  let uniform := Choice.member (members.map (·.1))
  if sameWeight members then uniform
  else if h : 0 < (total members).toNat then
    .draw (total members).toNat h fun offset =>
      match walk offset.val members with
      | some member => .done (some member)
      | none => uniform
  else uniform

/-- The members whose weight brings some number from `low` up to `high` below zero, where the weights
of the members before add up to `before`. -/
def reached (low high before : Int) : List (α × Int32) → List α
  | [] => []
  | member :: rest =>
    let sum := before + member.2.toInt
    if low < sum && low < high then member.1 :: reached sum high sum rest
    else reached low high sum rest

/-- The members that can be selected, in the order of the list. -/
def candidates (members : List (α × Int32)) : List α :=
  if sameWeight members || total members ≤ 0 then members.map (·.1)
  else reached 0 (total members) 0 members

end RemoteCall.Balance.Random
