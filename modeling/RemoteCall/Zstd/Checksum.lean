import RemoteCall.Zstd.Bits

/-!
# Checksums of frames

A frame may end with the lowest four bytes of a hash of its content. The hash takes 32 bytes at a time
into four lanes, merges the lanes, adds the length, takes the bytes that are left by eights, a four and
ones, and mixes the result.
-/

namespace RemoteCall.Zstd.Checksum

def prime1 : UInt64 := 11400714785074694791
def prime2 : UInt64 := 14029467366897019727
def prime3 : UInt64 := 1609587929392839161
def prime4 : UInt64 := 9650029242287828579
def prime5 : UInt64 := 2870177450012600261

/-- The bits of a number turned left. -/
def turn (n : UInt64) (places : UInt64) : UInt64 :=
  (n <<< places) ||| (n >>> (64 - places))

/-- Takes eight bytes into a lane. -/
def mix (lane bytes : UInt64) : UInt64 :=
  turn (lane + bytes * prime2) 31 * prime1

/-- Takes a lane into the hash. -/
def merge (hash lane : UInt64) : UInt64 :=
  (hash ^^^ mix 0 lane) * prime1 + prime4

/-- The hash of the lanes after some stripes of 32 bytes. -/
def stripes (data : ByteArray) : Nat → Nat → UInt64 → UInt64 → UInt64 → UInt64 → UInt64
  | 0, _, a, b, c, d =>
    merge (merge (merge (merge (turn a 1 + turn b 7 + turn c 12 + turn d 18) a) b) c) d
  | count + 1, place, a, b, c, d =>
    stripes data count (place + 32) (mix a (load data place)) (mix b (load data (place + 8)))
      (mix c (load data (place + 16))) (mix d (load data (place + 24)))

/-- Takes some groups of eight bytes. -/
def eights (data : ByteArray) : Nat → Nat → UInt64 → UInt64
  | 0, _, hash => hash
  | count + 1, place, hash =>
    eights data count (place + 8) (turn (hash ^^^ mix 0 (load data place)) 27 * prime1 + prime4)

/-- Takes four bytes. -/
def four (data : ByteArray) (place : Nat) (hash : UInt64) : UInt64 :=
  turn (hash ^^^ (load data place &&& 0xffffffff) * prime1) 23 * prime2 + prime3

/-- Takes some single bytes. -/
def ones (data : ByteArray) : Nat → Nat → UInt64 → UInt64
  | 0, _, hash => hash
  | count + 1, place, hash =>
    ones data count (place + 1)
      (turn (hash ^^^ (load data place &&& 0xff) * prime5) 11 * prime1)

/-- Spreads the bits of a hash. -/
def finish (hash : UInt64) : UInt64 :=
  let hash := (hash ^^^ (hash >>> 33)) * prime2
  let hash := (hash ^^^ (hash >>> 29)) * prime3
  hash ^^^ (hash >>> 32)

/-- The hash of the bytes from `first` to the end. -/
def hash (data : ByteArray) (first : Nat) : UInt64 :=
  let size := data.size - first
  -- without a whole stripe the lanes do not take part
  let start :=
    if 32 ≤ size then
      stripes data (size / 32) first (prime1 + prime2) prime2 0 (0 - prime1)
    else prime5
  let place := first + size / 32 * 32
  let rest := size % 32
  let h := eights data (rest / 8) place (start + UInt64.ofNat size)
  let place := place + rest / 8 * 8
  let rest := rest % 8
  if 4 ≤ rest then finish (ones data (rest - 4) (place + 4) (four data place h))
  else finish (ones data rest place h)

end RemoteCall.Zstd.Checksum
