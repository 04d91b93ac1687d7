import RemoteCall.Proofs.Blob.Parts

/-! # Scalars read back from their bytes

    The reader of a kind of scalars takes exactly what the writer of the kind
    wrote, whatever follows (`Scalar.takes_read`): numbers, characters and texts
    tell their own length.  The cases are the kinds. -/

namespace RemoteCall.Blob

/-! ## Numbers -/

theorem takes_readUnsigned (scalar : Scalar) {bits n : Nat} (h : n < 2 ^ bits) (most : bits ≤ 64) :
    Takes (readUnsigned scalar bits) (writeNat n) n := by
  have small : n < 2 ^ 64 := Nat.lt_of_lt_of_le h (Nat.pow_le_pow_right (by decide) most)
  intro rest
  rw [readUnsigned, bind_of_ok (takes_readNat small rest), if_pos h]
  rfl

/-- A number next to zero stays small when it is folded. -/
theorem fold_lt {n : Int} (half : Nat) (least : -half ≤ n) (most : n < half) :
    fold n < 2 * half := by
  cases n with
  | ofNat n =>
      rw [fold]
      have most : (n : Int) < half := most
      omega
  | negSucc n =>
      rw [fold]
      rw [Int.negSucc_eq] at least
      omega

theorem takes_readSigned (scalar : Scalar) (bits : Nat) {n : Int} (least : -(2 ^ (bits - 1)) ≤ n)
    (most : n < 2 ^ (bits - 1)) (small : fold n < 2 ^ 64) :
    Takes (readSigned scalar bits) (writeNat (fold n)) n := by
  intro rest
  rw [readSigned, bind_of_ok (takes_readNat small rest), unfold_fold]
  show (if _ then (pure n : Reader Int) else _) rest = _
  rw [if_pos (by simp [least, most])]
  rfl

theorem takes_readBool (b : Bool) : Takes readBool [b.toUInt8] b := by
  cases b <;> exact fun _ => rfl

/-! ## Characters -/

theorem ofText_singleton (c : Char) :
    Bytes.ofText (String.singleton c) = String.utf8EncodeChar c := by
  rw [Bytes.ofText, String.toByteArray_singleton, List.utf8Encode_singleton,
    List.toList_data_toByteArray]

/-- How many bytes a first byte announces, by the number that it is. -/
theorem width_ofNat {n : Nat} (h : n < 256) :
    Utf8.width (UInt8.ofNat n) =
      if n < 0x80 then 1
      else if 0xc2 ≤ n ∧ n ≤ 0xdf then 2
      else if 0xe0 ≤ n ∧ n ≤ 0xef then 3
      else if 0xf0 ≤ n ∧ n ≤ 0xf4 then 4
      else 0 := by
  have small : (UInt8.ofNat n).toNat = n := UInt8.toNat_ofNat_of_lt' h
  simp only [Utf8.width, UInt8.lt_iff_toNat_lt, UInt8.le_iff_toNat_le, small, Bool.and_eq_true,
    decide_eq_true_eq]
  rfl

/-- The first byte of a character announces how many bytes the character has. -/
theorem width_utf8EncodeChar (c : Char) :
    ∃ first others, String.utf8EncodeChar c = first :: others
      ∧ Utf8.width first = others.length + 1 := by
  have top : c.val.toNat < 0x110000 := by
    rcases c.valid with low | ⟨_, high⟩
    · exact Nat.lt_trans low (by decide)
    · exact high
  fun_cases String.utf8EncodeChar c with
  | case1 v one =>
      refine ⟨_, _, rfl, ?_⟩
      rw [width_ofNat (by omega), if_pos (by omega)]
      rfl
  | case2 v more two =>
      refine ⟨_, _, rfl, ?_⟩
      rw [width_ofNat (by omega), if_neg (by omega), if_pos (by omega)]
      rfl
  | case3 v more more' three =>
      refine ⟨_, _, rfl, ?_⟩
      rw [width_ofNat (by omega), if_neg (by omega), if_neg (by omega), if_pos (by omega)]
      rfl
  | case4 v more more' more'' =>
      refine ⟨_, _, rfl, ?_⟩
      rw [width_ofNat (by omega), if_neg (by omega), if_neg (by omega), if_neg (by omega),
        if_pos (by omega)]
      rfl

theorem takes_readChar (c : Char) : Takes readChar (Bytes.ofText (String.singleton c)) c := by
  intro rest
  have whole : Utf8.decode (String.utf8EncodeChar c) = .ok (String.singleton c) := by
    rw [← ofText_singleton, Utf8.decode_ofText]
  obtain ⟨first, others, spelled, width⟩ := width_utf8EncodeChar c
  rw [spelled] at whole
  have front := takes_take .endOfNumber (show [first].length = 1 from rfl) (others ++ rest)
  have behind := takes_take .badChar (show others.length = others.length + 1 - 1 from rfl) rest
  rw [ofText_singleton, spelled, readChar, List.cons_append, ← List.singleton_append,
    bind_of_ok front]
  dsimp only
  rw [List.headD_cons, width]
  show (take (others.length + 1 - 1) .badChar >>= _) _ = _
  rw [bind_of_ok behind, List.singleton_append, whole]
  dsimp only
  rw [String.toList_singleton]
  rfl

/-! ## All kinds -/

/-- The reader of a kind takes what was written for a scalar of the kind. -/
theorem Scalar.takes_read (scalar : Scalar) {value : scalar.Value}
    (short : (scalar.write value).length < 2 ^ 64) :
    Takes scalar.read (scalar.write value) value := by
  cases scalar with
  | u8 => exact takes_readByte _
  | u16 =>
      exact (takes_readUnsigned .u16 (UInt16.toNat_lt value) (by decide)).last_of_eq
        UInt16.ofNat_toNat
  | u32 =>
      exact (takes_readUnsigned .u32 (UInt32.toNat_lt value) (by decide)).last_of_eq
        UInt32.ofNat_toNat
  | u64 => exact (takes_readNat (UInt64.toNat_lt value)).last_of_eq UInt64.ofNat_toNat
  | u128 =>
      exact (takes_writeNat true (BitVec.isLt value)).last_of_eq (BitVec.ofNat_toNat 128 value)
  | i8 => exact (takes_readByte (Int8.toUInt8 value)).last_of_eq rfl
  | i16 =>
      have least := Int16.le_toInt value
      have most := Int16.toInt_lt value
      have small := fold_lt (2 ^ 15) least most
      exact (takes_readSigned .i16 16 least most (by omega)).last_of_eq (Int16.ofInt_toInt value)
  | i32 =>
      have least := Int32.le_toInt value
      have most := Int32.toInt_lt value
      have small := fold_lt (2 ^ 31) least most
      exact (takes_readSigned .i32 32 least most (by omega)).last_of_eq (Int32.ofInt_toInt value)
  | i64 =>
      have small := fold_lt (2 ^ 63) (Int64.le_toInt value) (Int64.toInt_lt value)
      refine (takes_readNat (by omega)).last_of_eq ?_
      rw [unfold_fold]
      exact Int64.ofInt_toInt value
  | i128 =>
      have small : fold (BitVec.toInt value) < 2 ^ 128 :=
        fold_lt (2 ^ 127) (BitVec.le_toInt value) (BitVec.toInt_lt)
      refine (takes_writeNat true small).last_of_eq ?_
      rw [unfold_fold]
      exact BitVec.ofInt_toInt
  | bool => exact takes_readBool _
  | f32 => exact (takes_readFixed 4 (UInt32.toNat_lt value)).last_of_eq UInt32.ofNat_toNat
  | f64 => exact (takes_readFixed 8 (UInt64.toNat_lt value)).last_of_eq UInt64.ofNat_toNat
  | char => exact takes_readChar _
  | unit => exact fun _ => rfl
  | text => exact takes_readText (Nat.lt_of_le_of_lt (utf8ByteSize_le_writeText value) short)

end RemoteCall.Blob
