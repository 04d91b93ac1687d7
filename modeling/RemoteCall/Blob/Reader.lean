import RemoteCall.Blob.Writer

/-!
# Reading blobs

A reader takes a value off the front of some bytes. Reading knows no limit of its own: a length that
the bytes at hand cannot meet is found out by their end.

`ofBytes` reads a whole blob and refuses bytes that are left over.
-/

namespace RemoteCall.Blob

/-- A reader takes a value off the front of some bytes or finds a flaw. -/
abbrev Reader (α : Type) := StateT Bytes (Except Flaw) α

/-- Takes `n` bytes. -/
def take (n : Nat) (missing : Flaw) : Reader Bytes := fun bytes =>
  match Bytes.cut? n bytes with
  | some (front, rest) => .ok (front, rest)
  | none => .error missing

/-- Reads one byte. -/
def readByte : Reader UInt8 := fun bytes =>
  match bytes with
  | b :: rest => .ok (b, rest)
  | [] => .error .endOfNumber

/-- Reads a number of a fixed width. -/
def readFixed (width : Nat) : Reader Nat := do
  return Bytes.ofLittleEndian (← take width .endOfNumber)

/-- Reads a number behind its mark; `wide` allows one of sixteen bytes. -/
def readNat (wide : Bool) : Reader Nat := do
  let mark ← readByte
  if mark < 251 then return mark.toNat
  else if mark = 251 then readFixed 2
  else if mark = 252 then readFixed 4
  else if mark = 253 then readFixed 8
  else if mark = 254 then if wide then readFixed 16 else throw .wideNumber
  else throw .reservedMark

/-- Reads an unsigned number below `2 ^ bits`. -/
def readUnsigned (scalar : Scalar) (bits : Nat) : Reader Nat := do
  let n ← readNat false
  if n < 2 ^ bits then return n else throw (.outOfRange scalar.name n)

/-- Reads a signed number of `bits` bits. -/
def readSigned (scalar : Scalar) (bits : Nat) : Reader Int := do
  let n ← readNat false
  let value := unfold n
  if -(2 ^ (bits - 1)) ≤ value && value < 2 ^ (bits - 1) then return value
  else throw (.outOfRange scalar.name value)

/-- Reads a truth value. -/
def readBool : Reader Bool := do
  match ← readByte with
  | 0 => return false
  | 1 => return true
  | found => throw (.badBool found)

/-- Reads one character. -/
def readChar : Reader Char := do
  let first ← take 1 .endOfNumber
  let width := Utf8.width (first.headD 0)
  if width = 0 then throw .badChar
  let others ← take (width - 1) .badChar
  match Utf8.decode (first ++ others) with
  | .ok text =>
    match text.toList with
    | [c] => return c
    | _ => throw .badChar
  | .error _ => throw .badChar

/-- Reads a text behind its number of bytes. -/
def readText : Reader String := do
  let n ← readNat false
  let bytes ← take n .endOfText
  match Utf8.decode bytes with
  | .ok text => return text
  | .error flaw => throw (.badText flaw)

/-- Reads `n` items; `found` collects them in reverse. -/
def readMany {α : Type} (readItem : Reader α) : Nat → List α → Bytes →
    Except Flaw (List α × Bytes)
  | 0, found, bytes => .ok (found.reverse, bytes)
  | n + 1, found, bytes =>
    match readItem bytes with
    | .ok (item, rest) => readMany readItem n (item :: found) rest
    | .error flaw => .error flaw

/-- Reads a list behind its number of items. -/
def readList {α : Type} (readItem : Reader α) : Reader (List α) := do
  let n ← readNat false
  readMany readItem n []

/-- Reads an option behind its tag. -/
def readOption {α : Type} (readItem : Reader α) : Reader (Option α) := do
  match ← readByte with
  | 0 => return none
  | 1 => return some (← readItem)
  | found => throw (.badTag found)

/-- Reads a scalar. -/
def Scalar.read : (scalar : Scalar) → Reader scalar.Value
  | .u8 => readByte
  | .u16 => return UInt16.ofNat (← readUnsigned .u16 16)
  | .u32 => return UInt32.ofNat (← readUnsigned .u32 32)
  | .u64 => return UInt64.ofNat (← readNat false)
  | .u128 => return BitVec.ofNat 128 (← readNat true)
  | .i8 => return UInt8.toInt8 (← readByte)
  | .i16 => return Int16.ofInt (← readSigned .i16 16)
  | .i32 => return Int32.ofInt (← readSigned .i32 32)
  | .i64 => return Int64.ofInt (unfold (← readNat false))
  | .i128 => return BitVec.ofInt 128 (unfold (← readNat true))
  | .bool => readBool
  | .f32 => return UInt32.ofNat (← readFixed 4)
  | .f64 => return UInt64.ofNat (← readFixed 8)
  | .char => readChar
  | .unit => return ()
  | .text => readText

/-- What a reader makes of a whole blob. -/
def readAll {α : Type} (reader : Reader α) (bytes : Bytes) : Except Flaw α :=
  match reader bytes with
  | .ok (value, []) => .ok value
  | .ok (_, _ :: _) => .error .leftover
  | .error flaw => .error flaw

/-- What a reader makes of a whole blob, with a flaw as a fault. -/
def ofBytes {α : Type} (reader : Reader α) (bytes : Bytes) : Except Fault α :=
  (readAll reader bytes).mapError fun flaw => .unreadable flaw.message

end RemoteCall.Blob
