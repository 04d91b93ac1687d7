import RemoteCall.Lz4.Block
import RemoteCall.Proofs.Compression.Compressors
import RemoteCall.Proofs.Compression.Steps

/-! # Blocks give back their text

    Unpacking undoes packing sequence by sequence: a length is read as it was
    written (`length?_writeLong`), a sequence moves the output from where its
    step starts to where it stops (`sequences_writeStep`), and the last one
    moves it to the end (`sequences_writeLast`).  So steps that divide a text
    give it back, however they were found (`sequences_of_divides`). -/

namespace RemoteCall.Lz4

open Compression

/-! ## Lengths -/

/-- Both lengths of a token are below sixteen. -/
theorem toNat_token (literals length : Nat) :
    (token literals length).toNat = min literals 15 * 16 + min length 15 := by
  rw [token]
  apply UInt8.toNat_ofNat_of_lt'
  show min literals 15 * 16 + min length 15 < 256
  omega

/-- Each byte of 255 adds to a long length, and the first other one ends it. -/
theorem longLength_replicate (sum count : Nat) {last : Nat} (small : last < 255) (rest : Bytes) :
    longLength sum (List.replicate count 255 ++ UInt8.ofNat last :: rest)
      = some (sum + 255 * count + last, rest) := by
  have value : (UInt8.ofNat last).toNat = last := by
    apply UInt8.toNat_ofNat_of_lt'
    show last < 256
    omega
  induction count generalizing sum with
  | zero =>
      have other : UInt8.ofNat last ≠ 255 := by
        intro same
        rw [same] at value
        have : 255 = last := value
        omega
      show longLength sum (UInt8.ofNat last :: rest) = _
      rw [longLength, if_neg other, value]
      rfl
  | succ count ih =>
      rw [List.replicate_succ, List.cons_append, longLength, if_pos rfl, ih]
      congr 2
      omega

/-- A length is read as it was written. -/
theorem length?_writeLong (length : Nat) (rest : Bytes) :
    length? (min length 15) (writeLong length ++ rest) = some (length, rest) := by
  rw [length?, writeLong]
  by_cases short : length < 15
  · have same : min length 15 = length := by omega
    rw [if_pos short, same, if_neg (by omega)]
    rfl
  · have full : min length 15 = 15 := by omega
    have last : (length - 15) % 255 < 255 := Nat.mod_lt _ (by decide)
    rw [if_neg short, full, if_pos rfl, List.append_assoc, List.singleton_append,
      longLength_replicate 15 _ last]
    congr 2
    omega

/-! ## Sequences -/

section Sequences

variable {data : ByteArray} {out : ByteArray}

theorem ofNat_littleEndian {offset : Nat} (small : offset < 65536) :
    (UInt8.ofNat offset).toNat + 256 * (UInt8.ofNat (offset / 256)).toNat = offset := by
  rw [UInt8.toNat_ofNat', UInt8.toNat_ofNat']
  omega

/-- The new bytes of a sequence are cut off. -/
theorem cut?_slice (data : ByteArray) (start : Nat) {length : Nat}
    (inside : start + length ≤ data.size) (rest : Bytes) :
    Bytes.cut? length (slice data start length ++ rest) = some (slice data start length, rest) := by
  have cut := Bytes.cut?_append (slice data start length) rest
  rw [length_slice inside] at cut
  exact cut

/-- A sequence moves the output from the start of its step to its stop. -/
theorem sequences_writeStep {step : Step} (fits : step.Fits limits (Bytes.ofArray data))
    (reached : Reaches (Bytes.ofArray data) step.start out) (fuel : Nat) {rest : Bytes} :
    ∃ next, Reaches (Bytes.ofArray data) step.stop next
      ∧ sequences data.size (fuel + 1) (writeStep data step ++ rest) out
        = sequences data.size fuel rest next := by
  have inside := fits.inside
  have size := reached.size
  have four : 4 ≤ step.length := fits.least
  have near := fits.near
  rw [Bytes.length_ofArray, Step.stop] at inside
  have new := reached.append step.literals
    (by rw [Bytes.length_ofArray]; omega)
  rw [← slice_eq] at new
  have repeated := new.copyBack fits.positive fits.within
    (by rw [Bytes.length_ofArray]; omega) fits.repeats
  refine ⟨_, repeated, ?_⟩
  have newSize : (slice data step.start step.literals).length = step.literals :=
    length_slice (by omega)
  have within := fits.within
  have positive := fits.positive
  -- the halves of the token are the lengths, as far as they fit
  have high : (token step.literals (step.length - 4)).toNat / 16 = min step.literals 15 := by
    rw [toNat_token]
    omega
  have low : (token step.literals (step.length - 4)).toNat % 16 = min (step.length - 4) 15 := by
    rw [toNat_token]
    omega
  have back : (UInt8.ofNat step.offset).toNat
      + 256 * (UInt8.ofNat (step.offset / 256)).toNat = step.offset :=
    ofNat_littleEndian (by omega)
  rw [writeStep, List.cons_append, sequences, high]
  simp only [List.append_assoc]
  -- the new bytes stand behind their length
  rw [length?_writeLong]
  dsimp only
  rw [cut?_slice data step.start (by omega)]
  dsimp only
  rw [newSize, if_neg (by omega)]
  -- the distance stands in two bytes, which the reader takes apart
  rw [show Bytes.littleEndian 2 step.offset
    = [UInt8.ofNat step.offset, UInt8.ofNat (step.offset / 256)] from rfl]
  simp only [List.cons_append, List.nil_append]
  -- the length of the repetition comes last, and the distance is one the output has
  rw [low, length?_writeLong]
  dsimp only
  rw [back, Nat.sub_add_cancel four, new.size, if_neg]
  simp only [Bool.or_eq_true, decide_eq_true_eq]
  omega

/-- The last sequence moves the output to the end. -/
theorem sequences_writeLast {start : Nat} (reached : Reaches (Bytes.ofArray data) start out)
    (fuel : Nat) :
    ∃ result, Reaches (Bytes.ofArray data) data.size result
      ∧ sequences data.size (fuel + 1) (writeLast data start) out = some result := by
  have inside := reached.inside
  rw [Bytes.length_ofArray] at inside
  have all : start + (data.size - start) = data.size := by omega
  have new := reached.append (data.size - start)
    (by rw [Bytes.length_ofArray]; omega)
  rw [← slice_eq, all] at new
  refine ⟨_, new, ?_⟩
  have high : (token (data.size - start) 0).toNat / 16 = min (data.size - start) 15 := by
    rw [toNat_token]
    omega
  -- no distance follows the last new bytes, which is how the reader knows that they are the last
  have cut := cut?_slice data start (show start + (data.size - start) ≤ data.size by omega) []
  rw [List.append_nil] at cut
  have fits : ¬ data.size < out.size + (slice data start (data.size - start)).length := by
    rw [← size_append, new.size]
    exact Nat.lt_irrefl _
  rw [writeLast, sequences, high, length?_writeLong]
  dsimp only
  rw [cut]
  dsimp only
  rw [if_neg fits]

/-- Sequences of steps that divide the text give all of it, where there is fuel for each of them. -/
theorem sequences_of_divides {start stop : Nat} {steps : List Step}
    (divides : Divides limits (Bytes.ofArray data) start steps stop)
    (reached : Reaches (Bytes.ofArray data) start out) (fuel : Nat) (enough : steps.length < fuel) :
    ∃ result, Reaches (Bytes.ofArray data) data.size result
      ∧ sequences data.size fuel (steps.flatMap (writeStep data) ++ writeLast data stop) out
        = some result := by
  induction divides generalizing out fuel with
  | nil place =>
      cases fuel with
      | zero => exact absurd enough (Nat.not_lt_zero _)
      | succ fuel => exact sequences_writeLast reached fuel
  | @cons step steps stop fits rest ih =>
      cases fuel with
      | zero => exact absurd enough (Nat.not_lt_zero _)
      | succ fuel =>
          obtain ⟨next, moved, first⟩ := sequences_writeStep fits reached fuel
          obtain ⟨result, whole, others⟩ := ih moved fuel (Nat.lt_of_succ_lt_succ enough)
          refine ⟨result, whole, ?_⟩
          rw [List.flatMap_cons, List.append_assoc, first, others]

end Sequences

/-! ## Bodies -/

theorem length_flatMap_writeStep (data : ByteArray) (steps : List Step) :
    steps.length ≤ (steps.flatMap (writeStep data)).length := by
  induction steps with
  | nil => exact Nat.le_refl 0
  | cons step steps ih =>
      rw [List.flatMap_cons, List.length_append, List.length_cons, writeStep, List.length_cons]
      omega

/-- The size of a body stands in front, in four bytes that are enough for it. -/
theorem pack_told {body : Bytes} (short : body.length ≤ sizeLimit) :
    ∃ block, pack body = Bytes.littleEndian 4 body.length ++ block
      ∧ Bytes.ofLittleEndian (Bytes.littleEndian 4 body.length) = body.length := by
  have size : (Bytes.toArray body).size = body.length := by
    rw [← Bytes.length_ofArray, Bytes.ofArray_toArray]
  refine ⟨(steps limits (Bytes.toArray body)).1.toList.flatMap (writeStep (Bytes.toArray body))
    ++ writeLast (Bytes.toArray body) (steps limits (Bytes.toArray body)).2, ?_, ?_⟩
  · rw [pack]
    dsimp only
    rw [size, List.append_assoc]
  · rw [Bytes.ofLittleEndian_littleEndian]
    apply Nat.mod_eq_of_lt
    rw [sizeLimit] at short
    omega

/-- A body of at most `sizeLimit` bytes comes back from its packed form. -/
theorem unpack?_pack {body : Bytes} (short : body.length ≤ sizeLimit) :
    unpack? (pack body) = some body := by
  have size : (Bytes.toArray body).size = body.length := by
    rw [← Bytes.length_ofArray, Bytes.ofArray_toArray]
  have divides := divides_steps limits (by decide) (Bytes.toArray body)
  have counted := length_flatMap_writeStep (Bytes.toArray body)
    (steps limits (Bytes.toArray body)).1.toList
  rw [pack]
  dsimp only
  generalize (steps limits (Bytes.toArray body)).1.toList = found at divides counted
  generalize (steps limits (Bytes.toArray body)).2 = stop at divides
  obtain ⟨result, whole, read⟩ := sequences_of_divides divides (reaches_empty _)
    ((found.flatMap (writeStep (Bytes.toArray body))
      ++ writeLast (Bytes.toArray body) stop).length + 1)
    (by rw [List.length_append]; omega)
  have four := Bytes.cut?_append (Bytes.littleEndian 4 (Bytes.toArray body).size)
    (found.flatMap (writeStep (Bytes.toArray body)) ++ writeLast (Bytes.toArray body) stop)
  obtain ⟨-, -, told⟩ := pack_told short
  rw [← size] at told
  rw [Bytes.length_littleEndian] at four
  rw [unpack?, List.append_assoc, four]
  dsimp only
  rw [told, read]
  rw [← Bytes.length_ofArray] at whole
  show some (Bytes.ofArray result) = some body
  rw [whole.eq, Bytes.ofArray_toArray]

/-- Packing into blocks loses nothing. -/
theorem lossless_blocks : blocks.compressor.Lossless := by
  refine blocks.lossless_compressor (fun body short => ?_) fun body short => unpack?_pack short
  obtain ⟨block, packed, told⟩ := pack_told short
  replace packed : blocks.pack body = Bytes.littleEndian 4 body.length ++ block := packed
  rw [packed, List.take_left' (Bytes.length_littleEndian 4 _), List.length_append,
    Bytes.length_littleEndian]
  exact ⟨Nat.le_add_right .., told⟩

/-- Unpacking gives no more bytes than are announced. -/
theorem within_blocks : blocks.Within :=
  length_unpack?

end RemoteCall.Lz4
