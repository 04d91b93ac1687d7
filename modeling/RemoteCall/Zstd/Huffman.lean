import RemoteCall.Zstd.Fse

/-!
# Huffman codes

Each symbol has a weight; a symbol of weight `w > 0` takes `2 ^ (w - 1)` of the `2 ^ depth` places of
the table, so that its code has `depth + 1 - w` bits, and weight zero stands for no code. The weight of
the last symbol is not written: it fills the table.

Weights are written as numbers of four bits, or packed by a table of finite state entropy whose two
states take turns.
-/

namespace RemoteCall.Zstd

open Compression

/-- A table of codes: the symbol and the length of the code at each place. -/
structure Codes where
  depth : Nat
  places : Array (UInt8 × Nat)

/-- The greatest depth of a table. -/
def maxDepth : Nat := 12

/-- The codes of some weights, to which that of the last symbol is still to be added. -/
def Codes.ofWeights? (weights : List Nat) : Option Codes :=
  let sum := (weights.map fun w => 2 ^ w / 2).sum
  if weights.any (maxDepth < ·) || sum = 0 then none
  else
    -- the last symbol fills the table, so what is missing has to be a share of its own
    let depth := sum.log2 + 1
    let rest := 2 ^ depth - sum
    if maxDepth < depth || rest ≠ 2 ^ rest.log2 then none
    else
      let weights := weights ++ [rest.log2 + 1]
      let ones := weights.count 1
      if ones < 2 || ones % 2 = 1 then none
      else
        let numbered := weights.zipIdx
        -- the longest codes stand first, each with the fewest places
        let places := (List.range depth).flatMap fun i =>
          numbered.flatMap fun w =>
            if w.1 = i + 1 then List.replicate (2 ^ i) (UInt8.ofNat w.2, depth - i) else []
        some ⟨depth, places.toArray⟩

/-! ## Weights -/

/-- Symbols of two states that take turns: each gives its symbol and then moves on, and when the
input has no bits left to move the first, the second gives a last symbol. At most `room` symbols. -/
def alternate (table : Table) : Nat → Backward → Nat → Nat → List Nat → Option (List Nat)
  | 0, _, _, _, _ => none
  | room + 1, bits, state, other, found =>
    let cell := table.cell state
    let found := cell.symbol :: found
    match bits.read? cell.bits with
    | some (n, rest) => alternate table room rest other (cell.base + n) found
    | none => if room = 0 then none else some ((table.cell other).symbol :: found)

/-- Weights packed by a table. -/
def packedWeights? (data : ByteArray) (first stop : Nat) : Option (List Nat) := do
  let (log, shares, next) ← readShares? data first stop 6 255
  let table := Table.ofShares log shares
  let bits ← Backward.ofRange? data next stop
  let (state, bits) ← bits.read? log
  let (other, bits) ← bits.read? log
  let found ← alternate table 255 bits state other []
  return found.reverse

/-- Weights of four bits each, the higher half of a byte first. -/
def plainWeights (data : ByteArray) (first count : Nat) : List Nat :=
  (List.range count).map fun i =>
    let b := (byteAt data (first + i / 2)).toNat
    if i % 2 = 0 then b / 16 else b % 16

/-- Reads the codes at a place; returns them with the place behind them. -/
def readCodes? (data : ByteArray) (first stop : Nat) : Option (Codes × Nat) := do
  if stop ≤ first then none
  let header := (byteAt data first).toNat
  -- from 128 on it counts weights of four bits, below that bytes
  let size := if header < 128 then header else (header - 126) / 2
  let next := first + 1 + size
  if stop < next then none
  let weights ←
    if header < 128 then packedWeights? data (first + 1) next
    else some (plainWeights data (first + 1) (header - 127))
  return (← Codes.ofWeights? weights, next)

/-! ## Symbols -/

/-- Adds `count` symbols to an array; all bits have to be used up. -/
def symbolsFrom (codes : Codes) : Nat → Backward → ByteArray → Option ByteArray
  | 0, bits, out => if bits.left = 0 then some out else none
  | count + 1, bits, out =>
    let (symbol, length) := codes.places.getD (bits.peek codes.depth) (0, 0)
    if bits.left < length then none
    else symbolsFrom codes count { bits with left := bits.left - length } (out.push symbol)

/-- Adds `count` symbols, read from one run of bytes. -/
def readSymbols? (codes : Codes) (data : ByteArray) (first stop count : Nat) (out : ByteArray) :
    Option ByteArray := do
  symbolsFrom codes count (← Backward.ofRange? data first stop) out

/-- Symbols read from four runs of bytes, whose lengths stand in front of them, except the last. The
first three give equally many symbols, and the last gives the others. -/
def readFourRuns? (codes : Codes) (data : ByteArray) (first stop count : Nat) :
    Option ByteArray := do
  if stop < first + 10 then none
  let run := (count + 3) / 4
  if count < 3 * run then none
  -- three lengths of two bytes, and then the runs
  let a := first + 6
  let b := a + numberAt data first 2
  let c := b + numberAt data (first + 2) 2
  let d := c + numberAt data (first + 4) 2
  if stop < d then none
  let out ← readSymbols? codes data a b run ByteArray.empty
  let out ← readSymbols? codes data b c run out
  let out ← readSymbols? codes data c d run out
  readSymbols? codes data d stop (count - 3 * run) out

end RemoteCall.Zstd
