import RemoteCall.Balance.ActiveCalls
import RemoteCall.Balance.Basic
import RemoteCall.Balance.Random
import RemoteCall.Balance.Ring
import RemoteCall.Balance.RoundRobin

/-!
# Balancers

A balancer selects one of the addresses of a list by one of the four strategies. It remembers the
selections counted for each key and the rings built for them. An empty list gives nothing and a single
address is given at once; nothing is counted, built or weighed then.
-/

namespace RemoteCall.Balance

/-- What the strategies remember. -/
structure Balancer where
  /-- How many selections by turns there were for each key. -/
  turns : Dictionary UInt32
  rings : Rings

/-- An address with what is known about it at the time of a selection. -/
structure Member where
  address : String
  weight : Int32
  /-- How many calls to it are in progress. -/
  active : Nat
  deriving DecidableEq, Repr

/-- Whether a strategy looks at the weights of the addresses. -/
def Strategy.weighs : Strategy → Bool
  | .consistentHash => false
  | _ => true

namespace Balancer

/-- Nothing was selected. -/
def empty : Balancer := ⟨.empty, .empty⟩

/-- The count of a selection by turns for a key; counts start again from zero after `2 ^ 32`. -/
def nextTurn (balancer : Balancer) (key : String) : UInt32 × Balancer :=
  let turn := (balancer.turns.get? key).getD 0
  (turn, { balancer with turns := balancer.turns.insert key (turn + 1) })

/-- Selects one of at least two members, which are those of the list, in its order. -/
def chooseAmong (digest : Digest) (balancer : Balancer) (strategy : Strategy) (key : String)
    (list : AddressList) (members : List Member) : Choice (Option String) × Balancer :=
  let weighted := members.map fun member => (member.address, member.weight)
  match strategy with
  | .random => (Random.choose weighted, balancer)
  | .roundRobin =>
    let (turn, balancer) := balancer.nextTurn key
    (.done (RoundRobin.pick weighted turn.toNat), balancer)
  | .consistentHash =>
    let (ring, rings) := balancer.rings.ringFor digest list key
    (.done (ring.select digest key), { balancer with rings := rings })
  | .leastActive =>
    (Choice.member
      (LeastActive.best (members.map fun member => (member.address, member.active, member.weight))),
      balancer)

/-- Selects an address of a list. -/
def choose (digest : Digest) (balancer : Balancer) (strategy : Strategy) (key : String)
    (list : AddressList) (members : List Member) : Choice (Option String) × Balancer :=
  match list.addresses with
  | [] => (.done none, balancer)
  | [only] => (.done (some only), balancer)
  | _ => balancer.chooseAmong digest strategy key list members

/-- The addresses that a selection can give, in the order of the list. -/
def candidates (digest : Digest) (balancer : Balancer) (strategy : Strategy) (key : String)
    (list : AddressList) (members : List Member) : List String :=
  match list.addresses with
  | [] => []
  | [only] => [only]
  | _ =>
    match strategy with
    | .random => Random.candidates (members.map fun member => (member.address, member.weight))
    | .leastActive =>
      LeastActive.best (members.map fun member => (member.address, member.active, member.weight))
    | _ => ((balancer.chooseAmong digest strategy key list members).1.resolve []).toList

end Balancer

end RemoteCall.Balance
