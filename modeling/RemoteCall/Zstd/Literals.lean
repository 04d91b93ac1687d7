import RemoteCall.Zstd.Huffman

/-!
# Literals of a block

A block starts with the new bytes of all its sequences: as they are, as one byte repeated, or packed
by Huffman codes, which stand in front of them or are those of an earlier block.
-/

namespace RemoteCall.Zstd

open Compression

/-- The most bytes that a block may give. -/
def maxBlock : Nat := 131072

/-- The literals of a block. -/
structure Literals where
  bytes : ByteArray
  /-- The codes for the blocks to come. -/
  codes : Option Codes
  /-- The place behind the literals. -/
  next : Nat

/-- Size and width of the header of literals that are not packed. -/
def plainHeader (data : ByteArray) (first : Nat) : Nat × Nat :=
  match (byteAt data first).toNat / 4 % 4 with
  | 1 => (numberAt data first 2 / 16, 2)
  | 3 => (numberAt data first 3 / 16, 3)
  | _ => ((byteAt data first).toNat / 8, 1)

/-- Both sizes and the width of the header of packed literals. -/
def packedHeader (data : ByteArray) (first : Nat) : Nat × Nat × Nat :=
  match (byteAt data first).toNat / 4 % 4 with
  | 2 => (bitsAt data first 4 14, bitsAt data first 18 14, 4)
  | 3 => (bitsAt data first 4 18, bitsAt data first 22 18, 5)
  | _ => (bitsAt data first 4 10, bitsAt data first 14 10, 3)

/-- Reads literals of which at most `limit` bytes are allowed, where `codes` are those of the last
block that had any. -/
def readLiterals? (data : ByteArray) (first stop limit : Nat) (codes : Option Codes) :
    Option Literals := do
  if stop < first + 2 then none
  match (byteAt data first).toNat % 4 with
  | 0 =>
    let (size, width) := plainHeader data first
    if limit < size || stop < first + width + size then none
    let start := first + width
    return ⟨data.extract start (start + size), codes, start + size⟩
  | 1 =>
    let (size, width) := plainHeader data first
    if limit < size || stop < first + width + 1 then none
    let b := byteAt data (first + width)
    return ⟨append ByteArray.empty (List.replicate size b), codes, first + width + 1⟩
  | form =>
    if stop < first + 5 then none
    let (size, packed, width) := packedHeader data first
    let single := (byteAt data first).toNat / 4 % 4 = 0
    let start := first + width
    let next := start + packed
    if limit < size || stop < next || (!single && size < 6) || size = 0 then none
    let (codes, start) ← if form = 2 then readCodes? data start next else codes.map (·, start)
    let bytes ←
      if single then readSymbols? codes data start next size ByteArray.empty
      else readFourRuns? codes data start next size
    return ⟨bytes, some codes, next⟩

end RemoteCall.Zstd
