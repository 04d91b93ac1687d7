import RemoteCall.Proofs.Compression.Steps
import RemoteCall.Zstd.Bits

/-! # Bits and the numbers they spell

    Bit `i` of a run of bytes is bit `i % 8` of byte `i / 8`.  This holds of
    the number that the bytes spell (`testBit_ofLittleEndian`), and of what is
    read at an index (`testBit_bitsAt`), so where known bytes stand in the
    input, reading bits is division and remainder (`Stands.bitsAt`). -/

namespace RemoteCall

/-- The bits of a number are those of the bytes that spell it. -/
theorem Bytes.testBit_ofLittleEndian (bytes : Bytes) (i : Nat) :
    (ofLittleEndian bytes).testBit i = (bytes.getD (i / 8) 0).toNat.testBit (i % 8) := by
  induction bytes generalizing i with
  | nil => rw [ofLittleEndian, Nat.zero_testBit]; exact (Nat.zero_testBit _).symm
  | cons b rest ih =>
      have low : b.toNat < 2 ^ 8 := b.toNat_lt
      rw [ofLittleEndian, Nat.add_comm, show 256 = 2 ^ 8 from rfl,
        Nat.testBit_two_pow_mul_add _ low]
      by_cases first : i < 8
      · rw [if_pos first, Nat.div_eq_of_lt first, Nat.mod_eq_of_lt first]
        rfl
      · rw [if_neg first, ih, show i / 8 = (i - 8) / 8 + 1 by omega, List.getD_cons_succ,
          show i % 8 = (i - 8) % 8 by omega]

namespace Zstd

open Compression

/-! ## Bits of the input -/

/-- A byte that is shifted by whole bytes has its bits there and no others. -/
theorem testBit_shifted (b : UInt8) {place : Nat} (fits : place < 8) (i : Nat) :
    (b.toUInt64 <<< UInt64.ofNat (8 * place)).toNat.testBit i
      = (decide (i / 8 = place) && b.toNat.testBit (i % 8)) := by
  have shift : (UInt64.ofNat (8 * place)).toNat % 64 = 8 * place := by
    rw [UInt64.toNat_ofNat']
    omega
  rw [UInt64.toNat_shiftLeft, shift, UInt8.toNat_toUInt64, Nat.testBit_mod_two_pow,
    Nat.testBit_shiftLeft]
  by_cases here : i / 8 = place
  · have same : i - 8 * place = i % 8 := by omega
    have low : i < 64 := by omega
    have behind : 8 * place ≤ i := by omega
    rw [decide_eq_true here, decide_eq_true low, decide_eq_true behind, same]
    rfl
  · rw [decide_eq_false here, Bool.false_and]
    -- above its byte the number has ended, and below the shift has left nothing
    by_cases behind : 8 * place ≤ i
    · have beyond : b.toNat < 2 ^ (i - 8 * place) :=
        Nat.lt_of_lt_of_le b.toNat_lt (Nat.pow_le_pow_right (by decide) (by omega : 8 ≤ _))
      rw [Nat.testBit_lt_two_pow beyond, Bool.and_false, Bool.and_false]
    · rw [decide_eq_false behind, Bool.false_and, Bool.and_false]

/-- Each byte of a group of eight has its eight bits. -/
theorem testBit_load (data : ByteArray) (place : Nat) {i : Nat} (inside : i < 64) :
    (load data place).toNat.testBit i = (byteAt data (place + i / 8)).toNat.testBit (i % 8) := by
  have shifts : load data place
      = (byteAt data (place + 0)).toUInt64 <<< UInt64.ofNat (8 * 0)
        ||| (byteAt data (place + 1)).toUInt64 <<< UInt64.ofNat (8 * 1)
        ||| (byteAt data (place + 2)).toUInt64 <<< UInt64.ofNat (8 * 2)
        ||| (byteAt data (place + 3)).toUInt64 <<< UInt64.ofNat (8 * 3)
        ||| (byteAt data (place + 4)).toUInt64 <<< UInt64.ofNat (8 * 4)
        ||| (byteAt data (place + 5)).toUInt64 <<< UInt64.ofNat (8 * 5)
        ||| (byteAt data (place + 6)).toUInt64 <<< UInt64.ofNat (8 * 6)
        ||| (byteAt data (place + 7)).toUInt64 <<< UInt64.ofNat (8 * 7) := by
    rw [show (byteAt data (place + 0)).toUInt64 <<< UInt64.ofNat (8 * 0)
      = (byteAt data place).toUInt64 from UInt64.shiftLeft_zero]
    rfl
  have byte : i / 8 < 8 := by omega
  rw [shifts]
  simp only [UInt64.toNat_or, Nat.testBit_or, testBit_shifted, Nat.reduceLT]
  -- in each of the eight places only the byte of this place is left
  generalize i / 8 = q at byte ⊢
  match q, byte with
  | 0, _ | 1, _ | 2, _ | 3, _ | 4, _ | 5, _ | 6, _ | 7, _ => simp

/-- The bits read at an index are those that stand there. -/
theorem testBit_bitsAt (data : ByteArray) (first index count i : Nat)
    (fits : index % 8 + count ≤ 64) :
    (bitsAt data first index count).testBit i
      = (decide (i < count)
        && (byteAt data (first + (index + i) / 8)).toNat.testBit ((index + i) % 8)) := by
  have shift : (UInt64.ofNat (index % 8)).toNat % 64 = index % 8 := by
    rw [UInt64.toNat_ofNat']
    omega
  rw [bitsAt, Nat.testBit_mod_two_pow, UInt64.toNat_shiftRight, shift, Nat.testBit_shiftRight]
  by_cases inside : i < count
  · rw [testBit_load data _ (by omega), show first + index / 8 + (index % 8 + i) / 8
      = first + (index + i) / 8 by omega, show (index % 8 + i) % 8 = (index + i) % 8 by omega]
  · rw [decide_eq_false inside, Bool.false_and, Bool.false_and]

/-! ## Known bytes in the input -/

/-- Some bytes stand at a place of the input. -/
def Stands (data : ByteArray) (place : Nat) (bytes : Bytes) : Prop :=
  ∃ before behind, Bytes.ofArray data = before ++ (bytes ++ behind) ∧ before.length = place

section Stands

variable {data : ByteArray} {place : Nat} {bytes others : Bytes}

theorem Stands.le_size (h : Stands data place bytes) : place + bytes.length ≤ data.size := by
  obtain ⟨before, behind, eq, rfl⟩ := h
  rw [← Bytes.length_ofArray, eq, List.length_append, List.length_append]
  omega

theorem Stands.left (h : Stands data place (bytes ++ others)) : Stands data place bytes := by
  obtain ⟨before, behind, eq, size⟩ := h
  exact ⟨before, others ++ behind, by rw [eq, List.append_assoc], size⟩

theorem Stands.right (h : Stands data place (bytes ++ others)) :
    Stands data (place + bytes.length) others := by
  obtain ⟨before, behind, eq, size⟩ := h
  refine ⟨before ++ bytes, behind, ?_, ?_⟩
  · rw [eq, List.append_assoc, List.append_assoc]
  · rw [List.length_append, size]

theorem Stands.getD (h : Stands data place bytes) {i : Nat} (inside : i < bytes.length) :
    byteAt data (place + i) = bytes.getD i 0 := by
  obtain ⟨before, behind, eq, rfl⟩ := h
  rw [byteAt_eq, eq, List.getD_eq_getElem?_getD, List.getElem?_append_right (Nat.le_add_right ..),
    Nat.add_sub_cancel_left, List.getElem?_append_left inside, List.getD_eq_getElem?_getD]

/-- The first of some bytes is read at their place. -/
theorem Stands.head {b : UInt8} (h : Stands data place (b :: bytes)) : byteAt data place = b :=
  h.getD (i := 0) (Nat.succ_pos _)

theorem Stands.tail {b : UInt8} (h : Stands data place (b :: bytes)) :
    Stands data (place + 1) bytes :=
  (show Stands data place ([b] ++ bytes) from h).right

/-- The bytes at a place are cut out whole. -/
theorem Stands.extract (h : Stands data place bytes) :
    Bytes.ofArray (data.extract place (place + bytes.length)) = bytes := by
  obtain ⟨before, behind, eq, rfl⟩ := h
  show slice data before.length bytes.length = bytes
  rw [slice_eq, eq, List.drop_left, List.take_left]

/-- Bits of bytes that stand in the input are bits of their number. -/
theorem Stands.bitsAt (h : Stands data place bytes) (index count : Nat)
    (fits : index % 8 + count ≤ 64) (inside : index + count ≤ 8 * bytes.length) :
    bitsAt data place index count = Bytes.ofLittleEndian bytes / 2 ^ index % 2 ^ count := by
  apply Nat.eq_of_testBit_eq
  intro i
  rw [testBit_bitsAt data place index count i fits, Nat.testBit_mod_two_pow,
    Nat.testBit_div_two_pow, Bytes.testBit_ofLittleEndian]
  by_cases small : i < count
  · rw [h.getD (by omega), Nat.add_comm i index]
  · rw [decide_eq_false small, Bool.false_and, Bool.false_and]

/-- A number of at most eight bytes is read where its bytes stand. -/
theorem Stands.numberAt (h : Stands data place bytes) (few : bytes.length ≤ 8) :
    numberAt data place bytes.length = Bytes.ofLittleEndian bytes := by
  have same : Zstd.numberAt data place bytes.length
      = Zstd.bitsAt data place 0 (8 * bytes.length) := by
    rw [Zstd.numberAt, Zstd.bitsAt, Nat.pow_mul]
    show (load data place).toNat % 256 ^ bytes.length
      = (load data place >>> 0).toNat % 256 ^ bytes.length
    rw [UInt64.shiftRight_zero]
  rw [same, h.bitsAt 0 (8 * bytes.length) (by omega) (by omega), Nat.pow_zero, Nat.div_one,
    Nat.pow_mul]
  exact Nat.mod_eq_of_lt (Bytes.ofLittleEndian_lt bytes)

end Stands

end Zstd

end RemoteCall
