import RemoteCall.Compression.Basic
import RemoteCall.Zstd.Frame

/-!
# Packing into Zstandard frames

A body becomes one frame without a size and without a checksum. Every step of the text (some new bytes
and a long repetition) is one packed block with a single sequence, each of whose three codes stands in
a table of its own; all other bytes stand in plain blocks.
-/

namespace RemoteCall.Zstd

open Compression

/-- The mark of a frame. -/
def mark : Bytes := [0x28, 0xb5, 0x2f, 0xfd]

/-- The header of a frame with a window of `2 ^ 17` bytes. -/
def frameHeader : Bytes := mark ++ [0x00, 0x38]

/-- What a block can express; a shorter repetition would not be worth a block. -/
def limits : Limits := ⟨32, 65535, 4, 0⟩

/-- The code of a number and the bits behind it. -/
def codeOf (codes : Array (Nat × Nat)) (n : Nat) : Nat × Nat × Nat :=
  let code := codes.toList.countP (·.1 ≤ n) - 1
  let (base, more) := codes.getD code (0, 0)
  (code, n - base, more)

/-- The three bytes in front of a block. -/
def blockHeader (last : Bool) (form size : Nat) : Bytes :=
  Bytes.littleEndian 3 (size * 8 + form * 2 + last.toNat)

/-- Bytes in plain blocks of at most 65536 bytes each, in reverse. -/
def plainBlocks (data : ByteArray) (last : Bool) : Nat → Nat → Nat → List Bytes → List Bytes
  | 0, _, _, blocks => blocks
  | fuel + 1, start, length, blocks =>
    if length ≤ 65536 then
      (blockHeader last 0 length ++ slice data start length) :: blocks
    else
      plainBlocks data last fuel (start + 65536) (length - 65536)
        ((blockHeader false 0 65536 ++ slice data start 65536) :: blocks)

/-- A block of literals and one sequence. The highest bit of the distance's value, which its code
implies, serves as the mark at the end of the bits. -/
def packedBlock (data : ByteArray) (step : Step) : Bytes :=
  let (literalCode, literalMore, literalBits) := codeOf literalCodes step.literals
  let (repeatCode, repeatMore, repeatBits) := codeOf matchCodes step.length
  let value := step.offset + 3
  let offsetBits := value.log2
  let bits := (value * 2 ^ repeatBits + repeatMore) * 2 ^ literalBits + literalMore
  let width := (offsetBits + repeatBits + literalBits) / 8 + 1
  let content := Bytes.littleEndian 3 (step.literals * 16 + 12)
    ++ slice data step.start step.literals
    ++ [1, 0x54, UInt8.ofNat literalCode, UInt8.ofNat offsetBits, UInt8.ofNat repeatCode]
    ++ Bytes.littleEndian width bits
  blockHeader false 2 content.length ++ content

/-- Adds the blocks of a step, in reverse. -/
def writeStep (data : ByteArray) (blocks : List Bytes) (step : Step) : List Bytes :=
  if step.literals ≤ 65536 then packedBlock data step :: blocks
  else
    packedBlock data { step with start := step.start + step.literals, literals := 0 }
      :: plainBlocks data false (step.literals + 1) step.start step.literals blocks

/-- A body, packed. -/
def pack (bytes : Bytes) : Bytes :=
  let data := Bytes.toArray bytes
  let (found, start) := steps limits data
  let blocks := found.foldl (writeStep data) []
  let length := data.size - start
  frameHeader ++ (plainBlocks data true (length + 1) start length blocks).reverse.flatten

/-- Packing and unpacking of Zstandard frames. Opening a stream unpacks all of it, so that a flaw shows
at once; what is left to be read is the text. -/
def streams : Streams where
  pack? body := some (pack body)
  Reader := Bytes
  open? := unpack?
  read? rest length := some (rest.take length, rest.drop length)

end RemoteCall.Zstd
