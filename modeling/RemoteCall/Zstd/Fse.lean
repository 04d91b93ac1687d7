import RemoteCall.Zstd.Bits

/-!
# Tables of finite state entropy

A table of `2 ^ log` states gives each symbol as many states as its share of the probability. A state
has a symbol, and the next state is its base plus a number of its bits, read from the input.

The shares come from the header of a table (`readShares?`), which is read forwards, or are fixed by
the format. A share of minus one stands for a symbol rarer than one state; it has one state at the end
of the table. All other states are dealt out in steps that visit every place once (`dealt`).
-/

namespace RemoteCall.Zstd

/-- A state of a table. -/
structure Cell where
  symbol : Nat
  /-- How many bits lead to the next state. -/
  bits : Nat
  /-- The next state for bits that are all zero. -/
  base : Nat
  deriving Inhabited

/-- A table of `2 ^ log` states. -/
structure Table where
  log : Nat
  cells : Array Cell

namespace Table

/-- The symbols of the states, given the shares of the symbols from zero on. -/
def dealt (log : Nat) (shares : List Int) : Array Nat :=
  let size := 2 ^ log
  let numbered := shares.zipIdx
  let rare := (numbered.filter fun share => share.1 = -1).map (·.2)
  let common := numbered.flatMap fun share => List.replicate share.1.toNat share.2
  let room := size - rare.length
  -- the stride is odd, so it visits every place once before it is back
  let stride := size / 2 + size / 8 + 3
  let places := ((List.range size).map fun i => i * stride % size).filter (· < room)
  let empty := Array.replicate size 0
  let withRare := rare.zipIdx.foldl (fun cells s => cells.setIfInBounds (size - 1 - s.2) s.1) empty
  (places.zip common).foldl (fun cells s => cells.setIfInBounds s.1 s.2) withRare

/-- Adds the next state to a table. The states of a symbol are numbered from its share on, and take
as many bits as lead from this number back to the size of the table. -/
def addCell (log : Nat) (acc : Array Cell × Array Nat) (symbol : Nat) : Array Cell × Array Nat :=
  let number := acc.2.getD symbol 1
  let bits := log - number.log2
  (acc.1.push ⟨symbol, bits, number * 2 ^ bits - 2 ^ log⟩,
    acc.2.setIfInBounds symbol (number + 1))

/-- The table of some shares. -/
def ofShares (log : Nat) (shares : List Int) : Table :=
  let numbers := (shares.map fun share => if share = -1 then 1 else share.toNat).toArray
  ⟨log, ((dealt log shares).foldl (addCell log) (#[], numbers)).1⟩

/-- The table with a single state, which takes no bits. -/
def single (symbol : Nat) : Table :=
  ⟨0, #[⟨symbol, 0, 0⟩]⟩

/-- The cell of a state. -/
def cell (table : Table) (state : Nat) : Cell :=
  table.cells.getD state default

end Table

/-! ## The header of a table -/

/-- How many symbols without a share follow, told two bits at a time as long as these are three;
returns the number and the place behind it. -/
def skipped (data : ByteArray) (first : Nat) : Nat → Nat → Nat → Nat × Nat
  | 0, index, count => (count, index)
  | fuel + 1, index, count =>
    let pair := bitsAt data first index 2
    if pair = 3 then skipped data first fuel (index + 2) (count + 3) else (count + pair, index + 2)

/-- The shares from a symbol on, in reverse, and the place behind them, where `left` states remain;
at most `room` symbols may follow. A share takes as few bits as its largest possible value allows, and
the smallest values take one bit less. -/
def sharesFrom (data : ByteArray) (first : Nat) :
    Nat → Nat → Nat → List Int → Option (List Int × Nat)
  | 0, _, _, _ => none
  | room + 1, index, left, found =>
    let width := (left + 1).log2 + 1
    let half := 2 ^ (width - 1)
    let short := 2 * half - 1 - (left + 1)
    -- a value below `short` is told by all bits but the highest
    let low := bitsAt data first index (width - 1)
    let full := bitsAt data first index width
    let value := if low < short then low else if full < half then full else full - short
    let index := index + (if low < short then width - 1 else width)
    let share : Int := value - 1
    let left := left - share.natAbs
    let found := share :: found
    if left = 0 then some (found, index)
    -- a symbol without a share is followed by how many more there are
    else if share = 0 then
      let (zeros, index) := skipped data first room index 0
      if room < zeros + 1 then none
      else sharesFrom data first (room - zeros) index left (List.replicate zeros 0 ++ found)
    else sharesFrom data first room index left found
  termination_by room => room
  decreasing_by
    · exact Nat.lt_succ_of_le (Nat.sub_le ..)
    · exact Nat.lt_succ_self _

/-- Reads the header of a table of at most `maxLog` and symbols up to `maxSymbol`, from `first` up to
`stop`; returns the table's logarithm, the shares and the place behind the header. -/
def readShares? (data : ByteArray) (first stop maxLog maxSymbol : Nat) :
    Option (Nat × List Int × Nat) :=
  let log := bitsAt data first 0 4 + 5
  if maxLog < log then none
  else
    match sharesFrom data first (maxSymbol + 1) 4 (2 ^ log) [] with
    | none => none
    | some (found, index) =>
      let next := first + (index + 7) / 8
      if stop < next then none else some (log, found.reverse, next)

end RemoteCall.Zstd
