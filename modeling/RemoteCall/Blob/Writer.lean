import RemoteCall.Blob.Flaw
import RemoteCall.Blob.Scalar
import RemoteCall.Fault

/-!
# Writing blobs

A number below 251 is one byte. A larger one is a mark (251 to 254) followed by two, four, eight or
sixteen bytes, least significant first, and the shortest of these is taken. A signed number is first
folded into an unsigned one (`fold`), so that numbers close to zero stay short. Floating-point
numbers have their fixed width. Whatever has a variable length starts with its number of items.

A blob of more than `sizeLimit` bytes is refused.
-/

namespace RemoteCall.Blob

/-- A number behind the shortest mark that fits. -/
def writeNat (n : Nat) : Bytes :=
  if n < 251 then [UInt8.ofNat n]
  else if n < 2 ^ 16 then 251 :: Bytes.littleEndian 2 n
  else if n < 2 ^ 32 then 252 :: Bytes.littleEndian 4 n
  else if n < 2 ^ 64 then 253 :: Bytes.littleEndian 8 n
  else 254 :: Bytes.littleEndian 16 n

/-- Signed numbers folded into unsigned ones, by distance from zero: 0, -1, 1, -2, 2, … -/
def fold : Int → Nat
  | .ofNat n => 2 * n
  | .negSucc n => 2 * n + 1

/-- The number that was folded. -/
def unfold (n : Nat) : Int :=
  if n % 2 = 0 then .ofNat (n / 2) else .negSucc (n / 2)

@[simp] theorem unfold_fold (n : Int) : unfold (fold n) = n := by
  cases n with
  | ofNat n => simp [fold, unfold]
  | negSucc n =>
    have half : (2 * n + 1) / 2 = n := by omega
    simp [fold, unfold, half]

/-- A text behind its number of bytes. -/
def writeText (text : String) : Bytes :=
  writeNat text.utf8ByteSize ++ Bytes.ofText text

/-- A byte string behind its number of bytes. -/
def writeBytes (bytes : Bytes) : Bytes :=
  writeNat bytes.length ++ bytes

/-- A list behind its number of items. -/
def writeList {α : Type} (writeItem : α → Bytes) (items : List α) : Bytes :=
  writeNat items.length ++ items.flatMap writeItem

/-- The bytes of a scalar. -/
def Scalar.write : (scalar : Scalar) → scalar.Value → Bytes
  | .u8, v => [v]
  | .u16, v => writeNat (UInt16.toNat v)
  | .u32, v => writeNat (UInt32.toNat v)
  | .u64, v => writeNat (UInt64.toNat v)
  | .u128, v => writeNat (BitVec.toNat v)
  | .i8, v => [Int8.toUInt8 v]
  | .i16, v => writeNat (fold (Int16.toInt v))
  | .i32, v => writeNat (fold (Int32.toInt v))
  | .i64, v => writeNat (fold (Int64.toInt v))
  | .i128, v => writeNat (fold (BitVec.toInt v))
  | .bool, v => [Bool.toUInt8 v]
  | .f32, v => Bytes.littleEndian 4 (UInt32.toNat v)
  | .f64, v => Bytes.littleEndian 8 (UInt64.toNat v)
  | .char, v => Bytes.ofText (String.singleton v)
  | .unit, _ => []
  | .text, v => writeText v

/-- Written bytes, unless they are more than allowed. -/
def bounded (bytes : Bytes) : Except Fault Bytes :=
  if bytes.length ≤ sizeLimit then .ok bytes else .error (.unwritable Flaw.tooLarge.message)

end RemoteCall.Blob
