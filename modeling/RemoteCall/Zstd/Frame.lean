import RemoteCall.Zstd.Checksum
import RemoteCall.Zstd.Sequences

/-!
# Zstandard frames

A packed body is a run of frames. A frame has a header, blocks up to one that is marked as the last,
and perhaps a checksum; a block gives bytes as they are, one byte repeated, or literals and sequences.
Skippable frames give nothing.

`unpack?` refuses an empty input, a frame that is cut off, and whatever behind a frame is not a frame.
Frames of the formats before version 0.8 are not known here.
-/

namespace RemoteCall.Zstd

open Compression

/-! ## Headers -/

/-- The header of a frame. -/
structure Header where
  /-- How many bytes the frame gives, where the header says so. -/
  contentSize : Option Nat
  /-- How many bytes back a repetition may reach. -/
  window : Nat
  /-- Whether a checksum stands behind the last block. -/
  checked : Bool
  /-- The place behind the header. -/
  next : Nat

/-- The largest window that is accepted. -/
def maxWindow : Nat := 2 ^ 27 + 1

/-- Frames that are known to give no more than this are read as a whole and need no window. -/
def wholeLimit : Nat := 8192

/-- Whether a frame is read as a whole. -/
def Header.isWhole (header : Header) : Bool :=
  match header.contentSize with
  | some size => size ≤ wholeLimit
  | none => false

/-- The most bytes of a block. -/
def Header.blockLimit (header : Header) : Nat :=
  min header.window maxBlock

/-- The window that a byte describes: a power of two and some eighths of it. -/
def windowOf? (b : Nat) : Option Nat :=
  let log := b / 8 + 10
  if 31 < log then none else some (2 ^ log + 2 ^ log / 8 * (b % 8))

/-- Reads what stands behind the mark of a frame. Dictionaries are unknown here, so that none may be
named. -/
def readHeader? (data : ByteArray) (first : Nat) : Option Header := do
  if data.size ≤ first then none
  let form := (byteAt data first).toNat
  let single := form / 32 % 2 = 1
  let place := first + 1 + (if single then 0 else 1)
  let dictionaryWidth := #[0, 1, 2, 4].getD (form % 4) 0
  let sizeWidth := if form / 64 = 0 then (if single then 1 else 0) else 2 ^ (form / 64)
  let next := place + dictionaryWidth + sizeWidth
  if data.size < next || form / 8 % 2 = 1 || numberAt data place dictionaryWidth ≠ 0 then none
  -- a size of two bytes is counted from 256 on, since smaller ones take one byte
  let size := numberAt data (place + dictionaryWidth) sizeWidth + (if sizeWidth = 2 then 256 else 0)
  let window ← if single then some size else windowOf? (byteAt data (first + 1)).toNat
  let header := ⟨if sizeWidth = 0 then none else some size, window, form / 4 % 2 = 1, next⟩
  if maxWindow < window && !header.isWhole then none
  return header

/-! ## Blocks -/

/-- What blocks leave for the blocks behind them. -/
structure Memory where
  out : ByteArray
  codes : Option Codes
  tables : Option Tables
  recent : Recent

/-- Reads a compressed block whose output may grow up to `limit`. -/
def readPacked? (data : ByteArray) (first stop : Nat) (header : Header) (origin limit : Nat)
    (memory : Memory) : Option Memory := do
  if header.blockLimit < stop - first then none
  let literals ← readLiterals? data first stop header.blockLimit memory.codes
  let (out, tables, recent) ←
    readSequences? data literals.next stop literals.bytes memory.tables memory.recent origin limit
      memory.out
  return ⟨out, literals.codes, tables, recent⟩

/-- Reads the content of a block of a form (0 plain, 1 repeated, 2 packed) and size; returns the place
behind it too. -/
def readBlock? (data : ByteArray) (first form size : Nat) (header : Header) (origin : Nat)
    (memory : Memory) : Option (Memory × Nat) :=
  let whole := header.isWhole
  match form with
  | 0 =>
    let stop := first + size
    if data.size < stop || (!whole && header.blockLimit < size) then none
    else some ({ memory with out := append memory.out (slice data first size) }, stop)
  | 1 =>
    if data.size ≤ first || (!whole && header.blockLimit < size) then none
    else
      let b := byteAt data first
      some ({ memory with out := append memory.out (List.replicate size b) }, first + 1)
  | 2 =>
    let stop := first + size
    let limit := if whole then origin + wholeLimit else memory.out.size + header.blockLimit
    if data.size < stop then none
    else if size = 0 && !whole then some (memory, stop)
    else (readPacked? data first stop header origin limit memory).map (·, stop)
  | _ => none

/-- Reads blocks up to the last one; each takes at least three bytes. -/
def readBlocks? (data : ByteArray) (header : Header) (origin : Nat) :
    Nat → Nat → Memory → Option (ByteArray × Nat)
  | 0, _, _ => none
  | fuel + 1, place, memory =>
    if data.size < place + 3 then none
    else
      let head := numberAt data place 3
      match readBlock? data (place + 3) (head / 2 % 4) (head / 8) header origin memory with
      | none => none
      | some (memory, next) =>
        if head % 2 = 1 then some (memory.out, next)
        else readBlocks? data header origin fuel next memory

/-! ## Frames -/

/-- Reads the frame behind a mark, adding its content to the output. -/
def readFrame? (data : ByteArray) (first : Nat) (out : ByteArray) : Option (ByteArray × Nat) := do
  let header ← readHeader? data first
  let origin := out.size
  let (out, next) ←
    readBlocks? data header origin data.size header.next ⟨out, none, none, Recent.start⟩
  if header.contentSize.any (· ≠ out.size - origin) then none
  if !header.checked then return (out, next)
  if data.size < next + 4 then none
  if (Checksum.hash out origin).toNat % 2 ^ 32 ≠ numberAt data next 4 then none
  return (out, next + 4)

/-- Reads frames up to the end of the input; each takes at least four bytes. -/
def readFrames? (data : ByteArray) : Nat → Nat → ByteArray → Option ByteArray
  | 0, _, _ => none
  | fuel + 1, place, out =>
    if data.size < place + 4 then none
    else
      let mark := numberAt data place 4
      let read :=
        -- frames with one of sixteen other marks tell their length and are passed over
        if mark = 0xfd2fb528 then readFrame? data (place + 4) out
        else if mark / 16 = 0x184d2a5 && place + 8 ≤ data.size then
          some (out, place + 8 + numberAt data (place + 4) 4)
        else none
      match read with
      | none => none
      | some (out, next) =>
        if next = data.size then some out else readFrames? data fuel next out

/-- The content of a packed body. -/
def unpack? (bytes : Bytes) : Option Bytes :=
  let data := Bytes.toArray bytes
  (readFrames? data (data.size + 1) 0 ByteArray.empty).map Bytes.ofArray

end RemoteCall.Zstd
