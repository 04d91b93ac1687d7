import RemoteCall.Bytes

/-!
# Repetition

Both packed formats describe a text as runs of new bytes and as repetitions of bytes that came
before. Unpacking grows an array: `append` adds new bytes and `copyBack` repeats, byte by byte, what
stands `offset` bytes before the end, so that a repetition may reach into itself.

Packing divides a text into steps, each some new bytes followed by a repetition (`steps`). The places
where four equal bytes stood last are kept in a table under a hash of these bytes; a repetition is
taken where it is long enough for the format at hand.
-/

namespace RemoteCall.Compression

/-! ## Unpacking -/

/-- Adds bytes to the end. -/
def append (out : ByteArray) (bytes : Bytes) : ByteArray :=
  bytes.foldl ByteArray.push out

/-- The byte that stands `offset` bytes before the end, or zero where there is none. -/
def byteBack (out : ByteArray) (offset : Nat) : UInt8 :=
  if h : 0 < offset ∧ offset ≤ out.size then out.get (out.size - offset) (by omega) else 0

/-- Adds a number of bytes, each the one that stands `offset` bytes before the end by then. -/
def copyBack (offset : Nat) : Nat → ByteArray → ByteArray
  | 0, out => out
  | length + 1, out => copyBack offset length (out.push (byteBack out offset))

@[simp] theorem size_append (out : ByteArray) (bytes : Bytes) :
    (append out bytes).size = out.size + bytes.length := by
  induction bytes generalizing out with
  | nil => rfl
  | cons b rest ih =>
    rw [append, List.foldl_cons, ← append, ih, ByteArray.size_push, List.length_cons]
    omega

/-! ## Packing -/

/-- Some new bytes, given by their place, and a repetition behind them. -/
structure Step where
  /-- Where the new bytes start. -/
  start : Nat
  /-- How many new bytes there are. -/
  literals : Nat
  /-- How far back the repetition reaches. -/
  offset : Nat
  /-- How many bytes it repeats. -/
  length : Nat

/-- What a format can express. -/
structure Limits where
  /-- The shortest repetition worth a step. -/
  shortest : Nat
  /-- The longest repetition of a step. -/
  longest : Nat
  /-- How many bytes before the end no repetition may start any more. -/
  margin : Nat
  /-- How many bytes at the end have to stay new. -/
  tail : Nat

/-- The byte at a place, or zero behind the end. -/
def byteAt (data : ByteArray) (place : Nat) : UInt8 :=
  if h : place < data.size then data.get place h else 0

/-- The four bytes at a place as one number. -/
def quadAt (data : ByteArray) (place : Nat) : UInt32 :=
  (byteAt data place).toUInt32 ||| ((byteAt data (place + 1)).toUInt32 <<< 8)
    ||| ((byteAt data (place + 2)).toUInt32 <<< 16) ||| ((byteAt data (place + 3)).toUInt32 <<< 24)

/-- The row of the table for four bytes. -/
def row (quad : UInt32) : Nat :=
  ((quad * 2654435761) >>> 18).toNat

/-- How many of at most `room` bytes are equal at two places. -/
def agreement (data : ByteArray) (earlier later : Nat) : Nat → Nat
  | 0 => 0
  | room + 1 =>
    if byteAt data earlier = byteAt data later then
      agreement data (earlier + 1) (later + 1) room + 1
    else 0

/-- The steps from a place on, where new bytes wait since `start`; `table` has the last place of each
row, counted from one. -/
def stepsFrom (limits : Limits) (data : ByteArray) :
    Nat → Nat → Nat → Array Nat → Array Step → Array Step × Nat
  | 0, start, _, _, found => (found, start)
  | fuel + 1, start, place, table, found =>
    if data.size < place + limits.margin then (found, start)
    else
      let quad := quadAt data place
      let r := row quad
      let last := table.getD r 0
      let table := table.setIfInBounds r (place + 1)
      let offset := place + 1 - last
      -- other bytes may have the same row, so the four are compared before it is trusted
      if last ≠ 0 && offset ≤ 65535 && quadAt data (last - 1) == quad then
        let length := agreement data (last - 1) place
          (min limits.longest (data.size - limits.tail - place))
        if limits.shortest ≤ length then
          stepsFrom limits data fuel (place + length) (place + length) table
            (found.push ⟨start, place - start, offset, length⟩)
        else stepsFrom limits data fuel start (place + 1) table found
      else stepsFrom limits data fuel start (place + 1) table found

/-- The steps of a text, and where the new bytes behind the last one start. -/
def steps (limits : Limits) (data : ByteArray) : Array Step × Nat :=
  stepsFrom limits data (data.size + 1) 0 0 (Array.replicate 16384 0) #[]

/-- The bytes from one place up to another. -/
def slice (data : ByteArray) (start length : Nat) : Bytes :=
  Bytes.ofArray (data.extract start (start + length))

end RemoteCall.Compression
