import RemoteCall.Compression.Window

/-!
# Reading single bits

Bit `i` of a run of bytes is bit `i % 8` of byte `i / 8`, the least significant one being bit 0.
Headers of tables are read forwards from bit 0. Packed symbols are read backwards: the highest set bit
of the last byte marks the end, and each read takes the bits just below those taken before.
-/

namespace RemoteCall.Zstd

open Compression

/-- Eight bytes as one number, least significant first; zeros stand behind the end. -/
def load (data : ByteArray) (place : Nat) : UInt64 :=
  (byteAt data place).toUInt64 ||| ((byteAt data (place + 1)).toUInt64 <<< 8)
    ||| ((byteAt data (place + 2)).toUInt64 <<< 16) ||| ((byteAt data (place + 3)).toUInt64 <<< 24)
    ||| ((byteAt data (place + 4)).toUInt64 <<< 32) ||| ((byteAt data (place + 5)).toUInt64 <<< 40)
    ||| ((byteAt data (place + 6)).toUInt64 <<< 48) ||| ((byteAt data (place + 7)).toUInt64 <<< 56)

/-- A number of at most 56 bits, whose lowest is bit `index` behind the byte `first`. -/
def bitsAt (data : ByteArray) (first index count : Nat) : Nat :=
  (load data (first + index / 8) >>> UInt64.ofNat (index % 8)).toNat % 2 ^ count

/-- The number of the bytes from `place` on, least significant first. -/
def numberAt (data : ByteArray) (place width : Nat) : Nat :=
  (load data place).toNat % 256 ^ width

/-- A run of bytes that is read backwards. -/
structure Backward where
  data : ByteArray
  /-- Where the run starts. -/
  first : Nat
  /-- How many bits are not read yet. -/
  left : Nat

namespace Backward

/-- The bits of the bytes from `first` up to `stop`, without the mark in the last byte. -/
def ofRange? (data : ByteArray) (first stop : Nat) : Option Backward :=
  if stop ≤ first then none
  else
    let last := byteAt data (stop - 1)
    if last = 0 then none else some ⟨data, first, 8 * (stop - 1 - first) + last.toNat.log2⟩

/-- Takes a number of at most 56 bits. -/
def read? (bits : Backward) (count : Nat) : Option (Nat × Backward) :=
  if count ≤ bits.left then
    let left := bits.left - count
    some (bitsAt bits.data bits.first left count, { bits with left := left })
  else none

/-- The next bits without taking them; zeros stand behind the last one. -/
def peek (bits : Backward) (count : Nat) : Nat :=
  if count ≤ bits.left then bitsAt bits.data bits.first (bits.left - count) count
  else bitsAt bits.data bits.first 0 bits.left * 2 ^ (count - bits.left)

end Backward

end RemoteCall.Zstd
