import RemoteCall.Balance.Balancer
import RemoteCall.Md5

/-! # Strategies in checked steps

    The strategies once more, as a machine takes their steps: numbers have a
    width, a division has a divisor and a draw has a range, and a list is
    indexed.  A step that cannot be taken is a flaw and ends the selection
    (`Checked`).  Weights and calls in progress are told by a source that may
    tell something else each time it is asked (`Source`), and the counters and
    rings of the balancer are taken and left in the world (`World`).

    A step either gives its value or overflows, and where numbers are small it
    does not overflow (`Gives`).  The rules at the end put steps together. -/

namespace RemoteCall.Balance

/-- Why a step cannot be taken. -/
inductive Flaw where
  | overflow
  | zeroDivisor
  | emptyRange
  | badIndex
  deriving DecidableEq, Repr

/-- Who tells weights and calls in progress. -/
structure Source (σ : Type) where
  /-- The weight of an address of a service. -/
  weight : σ → String → String → Int32 × σ
  /-- How many calls to an address are in progress. -/
  count : σ → String → UInt64 × σ

/-- What a selection works on. -/
structure World (σ : Type) where
  balancer : Balancer
  source : σ
  /-- The numbers for the draws. -/
  numbers : List Nat

/-- Steps that end in a value or in a flaw. -/
abbrev Checked (σ α : Type) : Type :=
  ExceptT Flaw (StateM (World σ)) α

namespace Checked

variable {σ α : Type}

/-! ## Steps -/

/-- A signed number of a number of bits. -/
def fit (bits : Nat) (n : Int) : Checked σ Int :=
  if -(2 ^ (bits - 1)) ≤ n ∧ n < 2 ^ (bits - 1) then pure n else throw .overflow

/-- What remains of a number that is not negative. -/
def remainder (n : Nat) (divisor : Int) : Checked σ Int :=
  if divisor = 0 then throw .zeroDivisor else pure ((n : Int).tmod divisor)

/-- One of the numbers from zero up to a bound. -/
def draw (bound : Int) : Checked σ Nat :=
  if 0 < bound then
    modifyGet fun world =>
      (world.numbers.headD 0 % bound.toNat, { world with numbers := world.numbers.tail })
  else throw .emptyRange

/-- The item at an index. -/
def item (items : List α) (i : Nat) : Checked σ α :=
  match items[i]? with
  | some item => pure item
  | none => throw .badIndex

/-- The weight of an address, as the source tells it now. -/
def weigh (source : Source σ) (key address : String) : Checked σ Int32 :=
  modifyGet fun world =>
    let (weight, state) := source.weight world.source key address
    (weight, { world with source := state })

/-- The calls to an address that are in progress, as the source tells them now. -/
def count (source : Source σ) (address : String) : Checked σ UInt64 :=
  modifyGet fun world =>
    let (active, state) := source.count world.source address
    (active, { world with source := state })

/-- The count of a selection by turns. -/
def nextTurn (key : String) : Checked σ UInt32 :=
  modifyGet fun world =>
    let (turn, balancer) := world.balancer.nextTurn key
    (turn, { world with balancer })

/-! ## Weighted random selection -/

/-- The weights of some addresses, read one after another. -/
def weighAll (source : Source σ) (key : String) : List String → Checked σ (List Int32)
  | [] => pure []
  | address :: rest => do
    let weight ← weigh source key address
    let weights ← weighAll source key rest
    pure (weight :: weights)

/-- A number with some weights added to it, in 64 bits. -/
def sumFrom : Int → List Int32 → Checked σ Int
  | sum, [] => pure sum
  | sum, weight :: rest => do
    let sum ← fit 64 (sum + weight.toInt)
    sumFrom sum rest

/-- The address whose weight brings a number below zero, in 64 bits. -/
def walk : Int → List (String × Int32) → Checked σ (Option String)
  | _, [] => pure none
  | offset, (address, weight) :: rest => do
    let offset ← fit 64 (offset - weight.toInt)
    if offset < 0 then pure (some address) else walk offset rest

/-- An address, all equally likely. -/
def uniform (addresses : List String) : Checked σ (Option String) := do
  let i ← draw addresses.length
  pure addresses[i]?

/-- The address that a number below the sum of the weights leads to. -/
def drawBy (total : Int) (weights : List Int32) (addresses : List String) :
    Checked σ (Option String) := do
  let offset ← draw total
  match ← walk offset (addresses.zip weights) with
  | some address => pure (some address)
  | none => uniform addresses

/-- Weighted random selection by weights that were read. -/
def randomBy (weights : List Int32) (addresses : List String) : Checked σ (Option String) := do
  let total ← sumFrom 0 weights
  if 0 < total && !(weights.zip weights.tail).all fun pair => pair.1 = pair.2 then
    drawBy total weights addresses
  else uniform addresses

/-- Weighted random selection. -/
def random (source : Source σ) (key : String) (addresses : List String) :
    Checked σ (Option String) := do
  let weights ← weighAll source key addresses
  randomBy weights addresses

/-! ## Weighted round robin -/

/-- What one pass over the addresses finds. -/
structure Tally where
  most : Int32
  least : Int32
  /-- The sum of the positive weights, in 64 bits. -/
  sum : Int
  /-- The addresses of positive weight, each with what is left of it in 32 bits. -/
  left : List (String × Int)

/-- A tally with some more addresses. -/
def tallyFrom (source : Source σ) (key : String) : Tally → List String → Checked σ Tally
  | tally, [] => pure tally
  | tally, address :: rest => do
    let weight ← weigh source key address
    let tally := { tally with most := max tally.most weight, least := min tally.least weight }
    if 0 < weight then
      let sum ← fit 64 (tally.sum + weight.toInt)
      tallyFrom source key { tally with sum, left := tally.left ++ [(address, weight.toInt)] } rest
    else tallyFrom source key tally rest

/-- A round in which every address spends one unit of what is left of its weight: the address that comes
behind a number of others, or what this leaves of the number and of the weights. -/
def round : Int → List (String × Int) → Checked σ (String ⊕ Int × List (String × Int))
  | offset, [] => pure (.inr (offset, []))
  | offset, (address, left) :: rest =>
    if offset = 0 ∧ 0 < left then pure (.inl address)
    else if 0 < left then do
      let left ← fit 32 (left - 1)
      let offset ← fit 64 (offset - 1)
      let outcome ← round offset rest
      pure (outcome.map id fun after => (after.1, (address, left) :: after.2))
    else do
      let outcome ← round offset rest
      pure (outcome.map id fun after => (after.1, (address, left) :: after.2))

/-- The address that comes behind a number of others, within a number of rounds. -/
def rounds : Nat → Int → List (String × Int) → Checked σ (Option String)
  | 0, _, _ => pure none
  | n + 1, offset, left => do
    match ← round offset left with
    | .inl address => pure (some address)
    | .inr after => rounds n after.1 after.2

/-- The address in the order of the list. -/
def inTurn (turn : UInt32) (addresses : List String) : Checked σ (Option String) := do
  let i ← remainder turn.toNat addresses.length
  pure addresses[i.toNat]?

/-- The pick at the count of a key, by weights that were read. -/
def takeTurn (tally : Tally) (key : String) (addresses : List String) :
    Checked σ (Option String) := do
  let turn ← nextTurn key
  if 0 < tally.most && tally.least < tally.most then
    let offset ← remainder turn.toNat tally.sum
    match ← rounds tally.most.toInt.toNat offset tally.left with
    | some address => pure (some address)
    | none => inTurn turn addresses
  else inTurn turn addresses

/-- Weighted round robin. -/
def roundRobin (source : Source σ) (key : String) (addresses : List String) :
    Checked σ (Option String) := do
  let tally ← tallyFrom source key ⟨0, Int32.maxValue, 0, []⟩ addresses
  takeTurn tally key addresses

/-! ## Selection by calls in progress -/

/-- The best addresses after some more. -/
def bestFrom (source : Source σ) (key : String) :
    LeastActive.Best String → List String → Checked σ (LeastActive.Best String)
  | best, [] => pure best
  | best, address :: rest => do
    let active ← count source address
    let weight ← weigh source key address
    bestFrom source key (best.add address active.toNat weight) rest

/-- One of some addresses; a single one needs no draw. -/
def oneOf (addresses : List String) : Checked σ (Option String) :=
  match addresses.length with
  | 0 => pure none
  | 1 => do
    let address ← item addresses 0
    pure (some address)
  | n => do
    let i ← draw n
    let address ← item addresses i
    pure (some address)

/-- Selection by calls in progress. -/
def leastActive (source : Source σ) (key : String) (addresses : List String) :
    Checked σ (Option String) := do
  let best ← bestFrom source key .start addresses
  oneOf best.members

/-! ## Hash rings -/

/-- The number that four bytes of a digest spell. -/
def wordAt (digest : Bytes) (window : Nat) : Checked σ UInt32 := do
  let bytes ← (List.range 4).mapM fun i => item digest (4 * window + i)
  pure (Md5.word bytes)

/-- The places that an address takes. -/
def placesOf (address : String) : Checked σ (List Place) := do
  let places ← (List.range (Ring.replicas / 4)).mapM fun i =>
    (List.range 4).mapM fun window => do
      let number ← wordAt (Md5.digest (Bytes.ofText (Ring.anchor address i))) window
      pure (number, address)
  pure places.flatten

/-- The ring of a list. -/
def ringOf (list : AddressList) : Checked σ Ring := do
  let places ← list.addresses.mapM placesOf
  pure ⟨list.generation, Ring.settle (places.flatten.mergeSort fun a b => a.1 ≤ b.1)⟩

/-- The ring of a list, taken over from the last use of the key if that was with the same list. -/
def ringFor (key : String) (list : AddressList) : Checked σ Ring := do
  let world ← get
  match (world.balancer.rings.get? key).filter fun ring => ring.generation = list.generation with
  | some ring => pure ring
  | none => do
    let ring ← ringOf list
    set { world with balancer :=
      { world.balancer with rings := world.balancer.rings.insert key ring } }
    pure ring

/-- Selection by hashing. -/
def consistentHash (key : String) (list : AddressList) : Checked σ (Option String) := do
  let ring ← ringFor key list
  let number ← wordAt (Md5.digest (Bytes.ofText key)) 0
  pure ((ring.placeAt number).map (·.2))

/-! ## Selection -/

/-- Selects an address of a list. -/
def select (source : Source σ) (strategy : Strategy) (key : String) (list : AddressList) :
    Checked σ (Option String) :=
  match list.addresses with
  | [] => pure none
  | [only] => pure (some only)
  | addresses =>
    match strategy with
    | .random => random source key addresses
    | .roundRobin => roundRobin source key addresses
    | .consistentHash => consistentHash key list
    | .leastActive => leastActive source key addresses

/-! ## What steps give -/

/-- What steps come to, and the world that they leave. -/
def outcome (steps : Checked σ α) (world : World σ) : Except Flaw α × World σ :=
  steps.run.run world

/-- Whether steps give a value and leave a world, unless they overflow, which they do not where numbers
are small; what overflows leaves the balancer. -/
def Gives (small : Prop) (steps : Checked σ α) (world : World σ) (value : α) (after : World σ) :
    Prop :=
  outcome steps world = (.ok value, after)
    ∨ ¬ small ∧ ∃ left, outcome steps world = (.error .overflow, left)
      ∧ left.balancer = world.balancer

variable {β : Type} {small : Prop} {world between after : World σ}

theorem outcome_bind {steps : Checked σ α} {value : α}
    (first : outcome steps world = (.ok value, between)) (next : α → Checked σ β) :
    outcome (steps >>= next) world = outcome (next value) between := by
  rw [outcome] at first
  rw [outcome, ExceptT.run_bind, StateT.run_bind, first]
  rfl

theorem outcome_bind_error {steps : Checked σ α} {flaw : Flaw}
    (first : outcome steps world = (.error flaw, between)) (next : α → Checked σ β) :
    outcome (steps >>= next) world = (.error flaw, between) := by
  rw [outcome] at first
  rw [outcome, ExceptT.run_bind, StateT.run_bind, first]
  rfl

theorem Gives.of_eq {steps : Checked σ α} {value : α}
    (same : outcome steps world = (.ok value, after)) : Gives small steps world value after :=
  .inl same

/-- Steps are taken one after another. -/
theorem Gives.bind {steps : Checked σ α} {next : α → Checked σ β} {value : α} {value' : β}
    (first : Gives small steps world value between) (same : between.balancer = world.balancer)
    (second : Gives small (next value) between value' after) :
    Gives small (steps >>= next) world value' after := by
  rcases first with first | ⟨large, left, first, kept⟩
  · rw [Gives, outcome_bind first]
    rcases second with second | ⟨large, left, second, kept⟩
    · exact .inl second
    · exact .inr ⟨large, left, second, kept.trans same⟩
  · exact .inr ⟨large, left, outcome_bind_error first next, kept⟩

/-- After steps that may overflow come steps that do not. -/
theorem Gives.bind_eq {steps : Checked σ α} {next : α → Checked σ β} {value : α} {value' : β}
    (first : Gives small steps world value between)
    (second : outcome (next value) between = (.ok value', after)) :
    Gives small (steps >>= next) world value' after := by
  rcases first with first | ⟨large, left, first, kept⟩
  · exact .inl ((outcome_bind first next).trans second)
  · exact .inr ⟨large, left, outcome_bind_error first next, kept⟩

/-- Steps that end in a value end in the one that they give. -/
theorem Gives.eq_of_ok {steps : Checked σ α} {value selected : α}
    (gives : Gives small steps world value after)
    (ended : (outcome steps world).1 = .ok selected) :
    selected = value ∧ (outcome steps world).2 = after := by
  rcases gives with given | ⟨-, left, overflowed, -⟩
  · rw [given] at ended ⊢
    exact ⟨(Except.ok.inj ended).symm, rfl⟩
  · rw [overflowed] at ended
    exact nomatch ended

/-- Steps that end in a flaw overflow, and the numbers are not small. -/
theorem Gives.eq_of_error {steps : Checked σ α} {value : α} {flaw : Flaw}
    (gives : Gives small steps world value after)
    (failed : (outcome steps world).1 = .error flaw) : flaw = .overflow ∧ ¬ small := by
  rcases gives with given | ⟨large, left, overflowed, -⟩
  · rw [given] at failed
    exact nomatch failed
  · rw [overflowed] at failed
    exact ⟨(Except.error.inj failed).symm, large⟩

/-- A number fits if it is small. -/
theorem gives_fit {bits : Nat} {n : Int}
    (fits : small → -(2 ^ (bits - 1)) ≤ n ∧ n < 2 ^ (bits - 1)) :
    Gives small (fit bits n) world n world := by
  rw [fit]
  split
  · exact .inl rfl
  · next large => exact .inr ⟨fun isSmall => large (fits isSmall), world, rfl, rfl⟩

theorem outcome_fit {bits : Nat} {n : Int} (fits : -(2 ^ (bits - 1)) ≤ n ∧ n < 2 ^ (bits - 1)) :
    outcome (fit bits n) world = (.ok n, world) := by
  rw [fit, if_pos fits]
  rfl

theorem outcome_remainder {n divisor : Nat} (positive : 0 < divisor) :
    outcome (remainder n divisor) world = (.ok ((n % divisor : Nat) : Int), world) := by
  rw [remainder, if_neg (by omega), Int.ofNat_tmod]
  rfl

theorem outcome_draw {bound : Int} (positive : 0 < bound) :
    outcome (draw bound) world = (.ok (world.numbers.headD 0 % bound.toNat),
      { world with numbers := world.numbers.tail }) := by
  rw [draw, if_pos positive]
  rfl

theorem outcome_item {items : List α} {i : Nat} {value : α} (found : items[i]? = some value) :
    outcome (item items i) world = (.ok value, world) := by
  rw [item, found]
  rfl

end Checked

end RemoteCall.Balance
