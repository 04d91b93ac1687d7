/-!
# Address lists, strategies and choices

The addresses of a service are wrapped in a list with a generation. Lists are never changed: whoever
makes a list draws a new generation for it, so that equal generations mean the same list. There are
four ways to choose one of the addresses of a list.

A choice is what a random selection does: it gives a value, or it draws one of the numbers below some
positive bound, all of them equally likely, and goes on. `Choice.Possible` says which values can come
out.
-/

namespace RemoteCall.Balance

/-! ## Address lists -/

/-- Addresses under a generation. -/
structure AddressList where
  generation : Nat
  addresses : List String
  deriving DecidableEq, Repr

namespace AddressList

/-- Whether a list has an address. -/
def contains (list : AddressList) (address : String) : Bool :=
  list.addresses.contains address

end AddressList

/-! ## Strategies -/

/-- A way to choose an address. -/
inductive Strategy where
  | random
  | roundRobin
  | consistentHash
  | leastActive
  deriving DecidableEq, Repr

namespace Strategy

/-- The name that a strategy is registered under. -/
def name : Strategy → String
  | random => "random"
  | roundRobin => "round_robin"
  | consistentHash => "consistent_hash"
  | leastActive => "least_active"

/-- All strategies. -/
def all : List Strategy := [random, roundRobin, consistentHash, leastActive]

end Strategy

/-! ## Choices -/

/-- A value that may depend on draws. -/
inductive Choice (α : Type) where
  | done (value : α)
  | draw (bound : Nat) (positive : 0 < bound) (next : Fin bound → Choice α)

namespace Choice

variable {α : Type}

/-- A value can come out of a choice. -/
inductive Possible : Choice α → α → Prop where
  | done (value : α) : Possible (.done value) value
  | draw {bound : Nat} {positive : 0 < bound} {next : Fin bound → Choice α} {value : α}
      (i : Fin bound) : Possible (next i) value → Possible (.draw bound positive next) value

/-- The value that comes out when the draws are made from some numbers, each reduced to the bound of
its draw; a draw behind the last number gives zero. -/
def resolve : Choice α → List Nat → α
  | .done value, _ => value
  | .draw bound positive next, numbers =>
    resolve (next ⟨numbers.headD 0 % bound, Nat.mod_lt _ positive⟩) numbers.tail

/-- Resolving gives a possible value. -/
theorem possible_resolve (choice : Choice α) (numbers : List Nat) :
    Possible choice (choice.resolve numbers) := by
  induction choice generalizing numbers with
  | done value => exact .done value
  | draw bound positive next ih => exact .draw _ (ih _ _)

/-- One of the members of a list, all equally likely. -/
def member (members : List α) : Choice (Option α) :=
  if h : 0 < members.length then .draw members.length h fun i => .done (some (members.get i))
  else .done none

end Choice

end RemoteCall.Balance
