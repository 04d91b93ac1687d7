/-!
# Byte strings

A byte string is a list of bytes. Numbers cross the wire at a fixed width, either with the least
significant byte first (`littleEndian`) or with the most significant byte first (`bigEndian`); each
writer stands beside the reader that inverts it (`ofLittleEndian_littleEndian`,
`ofBigEndian_bigEndian`).

`sizeLimit` is the one bound that frames, blobs and decompressed bodies share.

A power of a number and the sum of a list are those of the core library here, and in every module that
imports this one, whatever other library is in scope: one that is built on monoids has instances of its
own for the same notation, which give the same numbers by other terms.
-/

attribute [instance (2000)] instPowNat Zero.ofOfNat0
attribute [default_instance (20000)] instPowNat

namespace RemoteCall

/-- A byte string. -/
abbrev Bytes := List UInt8

/-- The most bytes that a frame, a blob or a decompressed body may have: eight mebibytes. -/
def sizeLimit : Nat := 8388608

namespace Bytes

/-- The bytes of a text in UTF-8. -/
def ofText (text : String) : Bytes :=
  text.toByteArray.data.toList

/-- The lowest `width` bytes of a number, least significant byte first. -/
def littleEndian : Nat → Nat → Bytes
  | 0, _ => []
  | width + 1, n => UInt8.ofNat n :: littleEndian width (n / 256)

/-- The number that bytes spell with the least significant byte first. -/
def ofLittleEndian : Bytes → Nat
  | [] => 0
  | b :: rest => b.toNat + 256 * ofLittleEndian rest

/-- The lowest `width` bytes of a number, most significant byte first. -/
def bigEndian (width n : Nat) : Bytes :=
  (littleEndian width n).reverse

/-- The number that bytes spell with the most significant byte first. -/
def ofBigEndian (bytes : Bytes) : Nat :=
  ofLittleEndian bytes.reverse

@[simp] theorem length_littleEndian (width n : Nat) : (littleEndian width n).length = width := by
  induction width generalizing n with
  | zero => rfl
  | succ width ih => simp [littleEndian, ih]

@[simp] theorem length_bigEndian (width n : Nat) : (bigEndian width n).length = width := by
  simp [bigEndian]

/-- Reading back gives the number, cut to the width. -/
theorem ofLittleEndian_littleEndian (width n : Nat) :
    ofLittleEndian (littleEndian width n) = n % 256 ^ width := by
  induction width generalizing n with
  | zero => simp [littleEndian, ofLittleEndian, Nat.mod_one]
  | succ width ih =>
    have low : (UInt8.ofNat n).toNat = n % 256 := UInt8.toNat_ofNat'
    rw [littleEndian, ofLittleEndian, ih, low, Nat.pow_succ, Nat.mul_comm (256 ^ width) 256,
      Nat.mod_mul]

/-- Reading back gives the number, cut to the width. -/
theorem ofBigEndian_bigEndian (width n : Nat) :
    ofBigEndian (bigEndian width n) = n % 256 ^ width := by
  simp [ofBigEndian, bigEndian, ofLittleEndian_littleEndian]

/-- A number of `k` bytes is below `256 ^ k`. -/
theorem ofLittleEndian_lt (bytes : Bytes) : ofLittleEndian bytes < 256 ^ bytes.length := by
  induction bytes with
  | nil => simp [ofLittleEndian]
  | cons b rest ih =>
    have := b.toNat_lt
    simp only [ofLittleEndian, List.length_cons, Nat.pow_succ]
    omega

theorem ofBigEndian_lt (bytes : Bytes) : ofBigEndian bytes < 256 ^ bytes.length := by
  have bound := ofLittleEndian_lt bytes.reverse
  rw [List.length_reverse] at bound
  exact bound

/-- The first `n` bytes and the others, where there are so many; `taken` collects the first ones in
reverse. -/
def cutFrom (taken : Bytes) : Nat → Bytes → Option (Bytes × Bytes)
  | 0, rest => some (taken.reverse, rest)
  | _ + 1, [] => none
  | n + 1, b :: rest => cutFrom (b :: taken) n rest

theorem cutFrom_eq (taken : Bytes) (n : Nat) (bytes : Bytes) :
    cutFrom taken n bytes =
      if n ≤ bytes.length then some (taken.reverse ++ bytes.take n, bytes.drop n) else none := by
  induction n generalizing taken bytes with
  | zero => simp [cutFrom]
  | succ n ih =>
    cases bytes with
    | nil => simp [cutFrom]
    | cons b rest => simp [cutFrom, ih]

/-- The first `n` bytes and the others, where there are so many. -/
def cut? (n : Nat) (bytes : Bytes) : Option (Bytes × Bytes) :=
  cutFrom [] n bytes

theorem cut?_eq (n : Nat) (bytes : Bytes) :
    cut? n bytes = if n ≤ bytes.length then some (bytes.take n, bytes.drop n) else none := by
  simp [cut?, cutFrom_eq]

/-- A part in front of other bytes is cut off. -/
theorem cut?_append (bytes rest : Bytes) :
    cut? bytes.length (bytes ++ rest) = some (bytes, rest) := by
  have long : bytes.length ≤ (bytes ++ rest).length := by
    rw [List.length_append]
    exact Nat.le_add_right ..
  rw [cut?_eq, if_pos long, List.take_left, List.drop_left]

/-- A byte string as an array. -/
def toArray (bytes : Bytes) : ByteArray :=
  bytes.toByteArray

/-- An array as a byte string. -/
def ofArray (array : ByteArray) : Bytes :=
  array.data.toList

@[simp] theorem ofArray_toArray (bytes : Bytes) : ofArray (toArray bytes) = bytes :=
  List.toList_data_toByteArray

@[simp] theorem length_ofArray (array : ByteArray) : (ofArray array).length = array.size :=
  Array.length_toList

end Bytes

end RemoteCall
