import RemoteCall.Proofs.Zstd.Sequence

/-! # Blocks give back their part of the text

    A block READS, when it stands in the input, as the move of the output from
    one place of the text to another (`Moves`).  Plain blocks do, and so does
    the packed block of a step that fits (`moves_packedBlock`): its literals
    are the new bytes, its tables have one state each, and its sequence repeats
    what stood before. -/

namespace RemoteCall.Zstd

open Compression

/-! ## Literals -/

section Reading

variable {input data : ByteArray} {first stop : Nat}

/-- New bytes behind their header of three bytes are read as they are. -/
theorem readLiterals?_plain (new : Bytes) (limit stop : Nat) (codes : Option Codes)
    (stands : Stands input first (Bytes.littleEndian 3 (new.length * 16 + 12) ++ new))
    (few : new.length ≤ 65536) (fits : new.length ≤ limit)
    (inside : first + 3 + new.length ≤ stop) :
    readLiterals? input first stop limit codes
      = some ⟨input.extract (first + 3) (first + 3 + new.length), codes,
          first + 3 + new.length⟩ := by
  have byte : (byteAt input first).toNat = (new.length * 16 + 12) % 256 := by
    rw [Bytes.littleEndian, List.cons_append] at stands
    rw [stands.head, UInt8.toNat_ofNat']
  have number := stands.left.numberAt (by rw [Bytes.length_littleEndian]; decide)
  rw [Bytes.length_littleEndian, Bytes.ofLittleEndian_littleEndian,
    Nat.mod_eq_of_lt (by omega)] at number
  -- the lowest bits of the header say that the bytes are as they are, and that three tell the size
  have form : (byteAt input first).toNat % 4 = 0 := by omega
  have width : (byteAt input first).toNat / 4 % 4 = 3 := by omega
  have size : (new.length * 16 + 12) / 16 = new.length := by omega
  have header : plainHeader input first = (new.length, 3) := by
    rw [plainHeader, width]
    show (Zstd.numberAt input first 3 / 16, 3) = _
    rw [number, size]
  rw [readLiterals?, form]
  simp only [header]
  have enough : ¬ ((decide (limit < new.length)
      || decide (stop < first + 3 + new.length)) = true) := by
    simp only [Bool.or_eq_true, decide_eq_true_eq]
    omega
  rw [if_neg (by omega), if_neg enough]
  rfl

/-! ## Sequences -/

theorem readTable?_single {b : UInt8} (byte : byteAt input first = b) {maxSymbol : Nat}
    (known : b.toNat ≤ maxSymbol) (inside : first < stop) (maxLog : Nat) (fixed : Table)
    (before : Option Table) :
    readTable? input first stop 1 maxLog maxSymbol fixed before
      = some (.single b.toNat, first + 1) := by
  have fits : ¬ ((decide (stop ≤ first) || decide (maxSymbol < b.toNat)) = true) := by
    simp only [Bool.or_eq_true, decide_eq_true_eq]
    omega
  rw [readTable?, byte]
  exact if_neg fits

/-- Three bytes behind their form give tables of one state each. -/
theorem readTables?_single (stop : Nat) {literals offsets repeats : UInt8}
    (stands : Stands input first [0x54, literals, offsets, repeats]) (before : Option Tables)
    (inside : first + 4 ≤ stop) (literalCode : literals.toNat ≤ 35)
    (offsetCode : offsets.toNat ≤ 31) (repeatCode : repeats.toNat ≤ 52) :
    readTables? input first stop before
      = some (⟨.single literals.toNat, .single offsets.toNat, .single repeats.toNat⟩,
          first + 4) := by
  have forms : (byteAt input first).toNat = 84 := by rw [stands.head]; rfl
  have second := stands.tail
  rw [readTables?, forms]
  simp only [Nat.reduceMod, Nat.reduceDiv,
    readTable?_single second.head literalCode (by omega : first + 1 < stop),
    readTable?_single second.tail.head offsetCode (by omega : first + 1 + 1 < stop),
    readTable?_single second.tail.tail.head repeatCode (by omega : first + 1 + 1 + 1 < stop),
    Option.bind_eq_bind, Option.bind_some]
  rw [if_neg (by omega)]
  rfl

/-- The start in a table of one state takes no bits. -/
theorem read?_single_log (bits : Backward) (symbol : Nat) :
    bits.read? (Table.single symbol).log = some (0, bits) := by
  have zero : bitsAt bits.data bits.first (bits.left - 0) 0 = 0 := by
    rw [bitsAt, Nat.pow_zero, Nat.mod_one]
  show bits.read? 0 = _
  rw [Backward.read?, if_pos (Nat.zero_le _)]
  dsimp only
  rw [zero]
  rfl

/-- A sequence with new bytes and a far repetition moves the output as its step does. -/
theorem execute_one {text : Bytes} {step : Step} (fits : step.Fits limits text)
    {out literals : ByteArray} (reached : Reaches text step.start out)
    (new : Bytes.ofArray literals = (text.drop step.start).take step.literals)
    {tables : Tables} {states : States} {bits rest : Backward} {value : Nat}
    (numbers : readNumbers? tables states bits = some ((step.literals, step.length, value), rest))
    (told : value = step.offset + 3) (done : rest.left = 0) {limit : Nat}
    (room : step.stop ≤ limit) (recent : Recent) :
    ∃ next : Work, execute tables literals 0 limit 1 states bits ⟨out, 0, recent⟩ = some next
      ∧ Reaches text step.stop next.out ∧ next.used = literals.size := by
  subst told
  have inside := fits.inside
  have positive := fits.positive
  have within := fits.within
  have size := reached.size
  rw [Step.stop] at inside room
  have count : literals.size = step.literals := by
    rw [← Bytes.length_ofArray, new, List.length_take, List.length_drop]
    omega
  have taken : slice literals 0 step.literals = (text.drop step.start).take step.literals := by
    rw [slice_eq, List.drop_zero, new, List.take_take, Nat.min_self]
  have added := reached.append step.literals (by omega)
  have repeated := added.copyBack positive within (by omega) fits.repeats
  -- values from four on are distances of their own; those below would name recent ones
  have far : recent.resolve (step.offset + 3) step.literals
      = (step.offset, ⟨step.offset, recent.first, recent.second⟩) := by
    rw [Recent.resolve, if_pos (by omega), Nat.add_sub_cancel]
  obtain ⟨next, moved, grown, used⟩ : ∃ next : Work,
      (⟨out, 0, recent⟩ : Work).step? literals 0 step.literals step.length (step.offset + 3)
        = some next
      ∧ next.out = copyBack step.offset step.length
          (append out ((text.drop step.start).take step.literals))
      ∧ next.used = step.literals := by
    rw [Work.step?]
    simp only [far, taken, Nat.zero_add, Nat.sub_zero]
    rw [if_neg]
    · exact ⟨_, rfl, rfl, rfl⟩
    · simp only [Bool.or_eq_true, decide_eq_true_eq, added.size]
      omega
  refine ⟨next, ?_, ?_, used.trans count.symm⟩
  · rw [execute, numbers]
    dsimp only
    rw [if_neg (by omega), moved]
    dsimp only
    rw [if_pos rfl, if_pos done]
  · rw [grown]
    exact repeated

end Reading

/-! ## Packed blocks -/

/-- How the numbers of a step are written: by two codes, and by the parts of one number. -/
structure Spells (step : Step) (literalCode repeatCode : Nat) (parts : Parts) : Prop where
  fits : parts.Fits
  value : parts.value = step.offset + 3
  literalCode_le : literalCode ≤ 35
  repeatCode_le : repeatCode ≤ 52
  literals : codeOf literalCodes step.literals
    = (literalCode, parts.literalMore, parts.literalBits)
  repeats : codeOf matchCodes step.length = (repeatCode, parts.repeatMore, parts.repeatBits)
  literalKnown : ∃ base, literalCodes.getD literalCode (0, 0) = (base, parts.literalBits)
    ∧ base + parts.literalMore = step.literals
  repeatKnown : ∃ base, matchCodes.getD repeatCode (0, 0) = (base, parts.repeatBits)
    ∧ base + parts.repeatMore = step.length

/-- Every step that fits can be written, unless it has too many new bytes. -/
theorem exists_spells {text : Bytes} {step : Step} (fits : step.Fits limits text)
    (few : step.literals ≤ 65536) : ∃ literalCode repeatCode parts,
      Spells step literalCode repeatCode parts := by
  have least : 32 ≤ step.length := fits.least
  have most : step.length ≤ 65535 := fits.most
  have near := fits.near
  -- the ranges of the codes reach far enough for the lengths of any step
  have literalSum : ((List.replicate 16 0 ++ [1, 1, 1, 1, 2, 2, 3, 3, 4, 6, 7, 8, 9, 10, 11, 12, 13,
      14, 15, 16]).map (2 ^ ·)).sum = 131072 := by decide
  have repeatSum : ((List.replicate 32 0 ++ [1, 1, 1, 1, 2, 2, 3, 3, 4, 4, 5, 7, 8, 9, 10, 11, 12,
      13, 14, 15, 16]).map (2 ^ ·)).sum = 131072 := by decide
  obtain ⟨literalCode, literalBase, literalBits, literal, literalCode_le, literalWidth⟩ :=
    codeOf_spec (show literalCodes = (bases 0 _).toArray from rfl) (Nat.zero_le step.literals)
      (by rw [literalSum]; omega)
  obtain ⟨repeatCode, repeatBase, repeatBits, repeated, repeatCode_le, repeatWidth⟩ :=
    codeOf_spec (show matchCodes = (bases 3 _).toArray from rfl) (show 3 ≤ step.length by omega)
      (by rw [repeatSum]; omega)
  have literalNarrow : ∀ width ∈ List.replicate 16 0 ++ [1, 1, 1, 1, 2, 2, 3, 3, 4, 6, 7, 8, 9, 10,
      11, 12, 13, 14, 15, 16], width ≤ 16 := by decide
  have repeatNarrow : ∀ width ∈ List.replicate 32 0 ++ [1, 1, 1, 1, 2, 2, 3, 3, 4, 4, 5, 7, 8, 9,
      10, 11, 12, 13, 14, 15, 16], width ≤ 16 := by decide
  refine ⟨literalCode, repeatCode, ⟨step.offset + 3, step.length - repeatBase, repeatBits,
    step.literals - literalBase, literalBits⟩, ?_, rfl, Nat.le_of_lt_succ literalCode_le,
    Nat.le_of_lt_succ repeatCode_le, literal.codeOf, repeated.codeOf, ⟨literalBase, literal.known,
    Nat.add_sub_cancel' literal.least⟩, ⟨repeatBase, repeated.known,
    Nat.add_sub_cancel' repeated.least⟩⟩
  exact ⟨Nat.succ_ne_zero _, by show step.offset + 3 < 2 ^ 32; omega, repeated.most,
    repeatNarrow _ repeatWidth, literal.most, literalNarrow _ literalWidth⟩

/-- The section of a packed block behind the literals. -/
def sequenceSection (literalCode repeatCode : Nat) (parts : Parts) : Bytes :=
  [1, 0x54, UInt8.ofNat literalCode, UInt8.ofNat parts.value.log2, UInt8.ofNat repeatCode]
    ++ Bytes.littleEndian parts.width parts.number

section Packed

variable {input data : ByteArray} {first : Nat} {step : Step} {literalCode repeatCode : Nat}
  {parts : Parts}

theorem length_slice_of_fits (fits : step.Fits limits (Bytes.ofArray data)) :
    (slice data step.start step.literals).length = step.literals := by
  have inside := fits.inside
  rw [Step.stop, Bytes.length_ofArray] at inside
  exact length_slice (by omega)

theorem Parts.Fits.width_le (fits : parts.Fits) : parts.width ≤ 9 := by
  have := fits.log2_lt
  have := fits.repeatBits
  have := fits.literalBits
  rw [Parts.width, Parts.total]
  omega

/-- What the packed block of a step holds: literals as they are, and a section with its sequence. -/
def content (data : ByteArray) (step : Step) (literalCode repeatCode : Nat) (parts : Parts) :
    Bytes :=
  Bytes.littleEndian 3 (step.literals * 16 + 12) ++ slice data step.start step.literals
    ++ sequenceSection literalCode repeatCode parts

theorem length_content (fits : step.Fits limits (Bytes.ofArray data)) (literalCode repeatCode : Nat)
    (parts : Parts) :
    (content data step literalCode repeatCode parts).length
      = 3 + step.literals + 5 + parts.width := by
  rw [content, sequenceSection, List.length_append, List.length_append, List.length_append,
    length_slice_of_fits fits, Bytes.length_littleEndian, Bytes.length_littleEndian]
  exact (Nat.add_assoc ..).symm

theorem packedBlock_eq (spells : Spells step literalCode repeatCode parts) :
    packedBlock data step
      = blockHeader false 2 (content data step literalCode repeatCode parts).length
        ++ content data step literalCode repeatCode parts := by
  rw [packedBlock, spells.literals, spells.repeats, content, sequenceSection, Parts.width,
    Parts.total, Parts.number, spells.value]
  simp only [List.append_assoc]

/-- The section of a step moves the output as the step does. -/
theorem readSequences?_section (spells : Spells step literalCode repeatCode parts) {text : Bytes}
    (fits : step.Fits limits text) {out literals : ByteArray}
    (reached : Reaches text step.start out)
    (new : Bytes.ofArray literals = (text.drop step.start).take step.literals)
    (stands : Stands input first (sequenceSection literalCode repeatCode parts))
    (before : Option Tables) (recent : Recent) {limit : Nat} (room : step.stop ≤ limit) :
    ∃ result, readSequences? input first (first + 5 + parts.width) literals before recent 0 limit
        out = some result
      ∧ Reaches text step.stop result.1 := by
  have literalCode_le := spells.literalCode_le
  have repeatCode_le := spells.repeatCode_le
  have offsetBits := spells.fits.log2_lt
  have literalByte : (UInt8.ofNat literalCode).toNat = literalCode :=
    UInt8.toNat_ofNat_of_lt' (by show literalCode < 256; omega)
  have offsetByte : (UInt8.ofNat parts.value.log2).toNat = parts.value.log2 :=
    UInt8.toNat_ofNat_of_lt' (by show parts.value.log2 < 256; omega)
  have repeatByte : (UInt8.ofNat repeatCode).toNat = repeatCode :=
    UInt8.toNat_ofNat_of_lt' (by show repeatCode < 256; omega)
  have wide : 0 < parts.width := Nat.succ_pos _
  have head := stands.left
  have one : (byteAt input first).toNat = 1 := by rw [head.head]; rfl
  have count : sequenceCount? input first (first + 5 + parts.width) = some (1, first + 1) := by
    rw [sequenceCount?, if_neg (by omega), one]
    rfl
  -- the codes stand in the tables: each has one state, which stands for its code
  have tables := readTables?_single (first + 5 + parts.width) head.tail before (by omega)
    (by omega) (by omega) (by omega)
  -- what is left of the section are the bits, and they are used up by the one sequence
  have bytes : Stands input (first + 5) (Bytes.littleEndian parts.width parts.number) :=
    stands.right
  rw [literalByte, offsetByte, repeatByte] at tables
  have bits := spells.fits.ofRange? bytes
  obtain ⟨literalBase, literalKnown, literalSum⟩ := spells.literalKnown
  obtain ⟨repeatBase, repeatKnown, repeatSum⟩ := spells.repeatKnown
  have numbers := readNumbers?_single spells.fits bytes literalKnown repeatKnown
  rw [literalSum, repeatSum] at numbers
  obtain ⟨next, done, moved, used⟩ :=
    execute_one fits reached new numbers spells.value rfl room recent
  -- no new bytes are left over for behind the sequence
  have nothing : slice literals next.used (literals.size - next.used) = [] := by
    rw [used, Nat.sub_self, slice_eq, List.take_zero]
  refine ⟨(next.out, some ⟨.single literalCode, .single parts.value.log2, .single repeatCode⟩,
    next.recent), ?_, moved⟩
  rw [readSequences?]
  simp only [count, tables, bits, read?_single_log, done, nothing, Option.bind_eq_bind,
    Option.bind_some]
  have fit : ¬ limit < next.out.size + List.length (α := UInt8) [] := by
    rw [moved.size]
    exact Nat.not_lt_of_le room
  rw [if_neg (by decide), if_neg fit]
  rfl

/-- What a packed block holds moves the output as its step does. -/
theorem readPacked?_content (spells : Spells step literalCode repeatCode parts)
    (fits : step.Fits limits (Bytes.ofArray data)) (few : step.literals ≤ 65536)
    {header : Header} (window : header.blockLimit = 131072) {memory : Memory}
    (reached : Reaches (Bytes.ofArray data) step.start memory.out) {limit : Nat}
    (room : step.stop ≤ limit)
    (stands : Stands input first (content data step literalCode repeatCode parts)) :
    ∃ next, readPacked? input first (first + 3 + step.literals + 5 + parts.width) header 0 limit
        memory = some next
      ∧ Reaches (Bytes.ofArray data) step.stop next.out := by
  have size := length_slice_of_fits fits
  have narrow := spells.fits.width_le
  have front := stands.left
  have behind := stands.right
  have new := front.right.extract
  rw [List.length_append, Bytes.length_littleEndian, size, ← Nat.add_assoc] at behind
  rw [Bytes.length_littleEndian, size, slice_eq] at new
  have literals := readLiterals?_plain (slice data step.start step.literals) header.blockLimit
    (first + 3 + step.literals + 5 + parts.width) memory.codes
    (by rw [size]; exact front) (by rw [size]; exact few) (by rw [size, window]; omega)
    (by rw [size]; omega)
  obtain ⟨result, read, moved⟩ := readSequences?_section spells fits reached new behind
    memory.tables memory.recent room
  rw [size] at literals
  refine ⟨⟨result.1, memory.codes, result.2.1, result.2.2⟩, ?_, moved⟩
  rw [readPacked?, if_neg (by rw [window]; omega)]
  simp only [literals, read, Option.bind_eq_bind, Option.bind_some]
  rfl

end Packed

/-! ## Blocks -/

/-- The header that packing writes: neither a size nor a checksum, and a window of one block. -/
def plainFrame : Header :=
  ⟨none, 131072, false, 6⟩

/-- Wherever a block stands, reading it moves the output from one place of the text to another. -/
structure Moves (text : Bytes) (last : Bool) (block : Bytes) (start stop : Nat) : Prop where
  three : 3 ≤ block.length
  mark : ∀ {input : ByteArray} {place : Nat}, Stands input place block →
    numberAt input place 3 % 2 = last.toNat
  read : ∀ {input : ByteArray} {place : Nat} {memory : Memory}, Stands input place block →
    Reaches text start memory.out →
    ∃ next, readBlock? input (place + 3) (numberAt input place 3 / 2 % 4)
        (numberAt input place 3 / 8) plainFrame 0 memory = some (next, place + block.length)
      ∧ Reaches text stop next.out

/-- The three bytes in front of a block tell its size, its form and whether it is the last. -/
theorem numberAt_blockHeader {input : ByteArray} {place : Nat} {last : Bool} {form size : Nat}
    {content : Bytes} (stands : Stands input place (blockHeader last form size ++ content))
    (known : form < 4) (small : size < 2 ^ 20) :
    numberAt input place 3 = size * 8 + form * 2 + last.toNat := by
  have bit := Bool.toNat_le last
  have number := stands.left.numberAt (by rw [blockHeader, Bytes.length_littleEndian]; decide)
  rw [blockHeader, Bytes.length_littleEndian, Bytes.ofLittleEndian_littleEndian,
    Nat.mod_eq_of_lt (by omega)] at number
  exact number

/-- A plain block adds the part of the text that it holds. -/
theorem moves_plainBlock (data : ByteArray) (last : Bool) (start : Nat) {length : Nat}
    (few : length ≤ 65536) (inside : start + length ≤ data.size) :
    Moves (Bytes.ofArray data) last (blockHeader last 0 length ++ slice data start length) start
      (start + length) := by
  have bit := Bool.toNat_le last
  have head : (blockHeader last 0 length).length = 3 := Bytes.length_littleEndian ..
  have size : (slice data start length).length = length := length_slice inside
  refine ⟨?_, fun stands => ?_, fun {input place memory} stands reached => ?_⟩
  · rw [List.length_append, head]
    exact Nat.le_add_right ..
  · rw [numberAt_blockHeader stands (by decide) (by omega)]
    omega
  · have number := numberAt_blockHeader stands (by decide) (by omega)
    have form : numberAt input place 3 / 2 % 4 = 0 := by omega
    have told : numberAt input place 3 / 8 = length := by omega
    have room := stands.le_size
    have content := stands.right
    have taken := content.extract
    have added := reached.append length (by rw [Bytes.length_ofArray]; exact inside)
    rw [List.length_append, head, size] at room
    rw [head, size] at taken
    have same : slice input (place + 3) length = slice data start length := taken
    rw [← slice_eq] at added
    refine ⟨{ memory with out := append memory.out (slice data start length) }, ?_, added⟩
    have fits : ¬ ((decide (input.size < place + 3 + length)
        || !plainFrame.isWhole && decide (plainFrame.blockLimit < length)) = true) := by
      have window : plainFrame.blockLimit = 131072 := rfl
      have whole : plainFrame.isWhole = false := rfl
      simp only [window, whole, Bool.or_eq_true, Bool.not_false, Bool.true_and, decide_eq_true_eq]
      omega
    rw [form, told, readBlock?, if_neg fits, same, List.length_append, head, size, Nat.add_assoc]

/-- The packed block of a step moves the output as the step does. -/
theorem moves_packedBlock {data : ByteArray} {step : Step}
    (fits : step.Fits limits (Bytes.ofArray data)) (few : step.literals ≤ 65536) :
    Moves (Bytes.ofArray data) false (packedBlock data step) step.start step.stop := by
  obtain ⟨literalCode, repeatCode, parts, spells⟩ := exists_spells fits few
  have most : step.length ≤ 65535 := fits.most
  have narrow := spells.fits.width_le
  have size := length_content fits literalCode repeatCode parts
  have head : (blockHeader false 2 (content data step literalCode repeatCode parts).length).length
      = 3 := Bytes.length_littleEndian ..
  rw [packedBlock_eq spells]
  refine ⟨?_, fun stands => ?_, fun {input place memory} stands reached => ?_⟩
  · rw [List.length_append, head]
    exact Nat.le_add_right ..
  · rw [numberAt_blockHeader stands (by decide) (by omega), Bool.toNat_false]
    omega
  · have number := numberAt_blockHeader stands (by decide) (by omega)
    rw [Bool.toNat_false] at number
    have form : numberAt input place 3 / 2 % 4 = 2 := by omega
    have told : numberAt input place 3 / 8
        = (content data step literalCode repeatCode parts).length := by omega
    have room := stands.le_size
    have held := stands.right
    rw [head] at held
    -- the new bytes and the repetition together are no longer than a block may be
    have limit : step.stop ≤ memory.out.size + plainFrame.blockLimit := by
      have window : plainFrame.blockLimit = 131072 := rfl
      rw [reached.size, window, Step.stop]
      omega
    obtain ⟨next, read, moved⟩ := readPacked?_content spells fits few
      (show plainFrame.blockLimit = 131072 from rfl)
      reached limit held
    refine ⟨next, ?_, moved⟩
    have stop : place + 3 + (content data step literalCode repeatCode parts).length
        = place + 3 + 3 + step.literals + 5 + parts.width := by omega
    have something : (content data step literalCode repeatCode parts).length ≠ 0 := by omega
    rw [← stop] at read
    rw [List.length_append, head, ← Nat.add_assoc] at room ⊢
    rw [form, told, readBlock?, if_neg (by omega), if_neg]
    · show (readPacked? input (place + 3)
        (place + 3 + (content data step literalCode repeatCode parts).length) plainFrame 0
        (memory.out.size + plainFrame.blockLimit) memory).map (·, _) = _
      rw [read]
      rfl
    · rw [decide_eq_false something]
      exact Bool.false_ne_true

end RemoteCall.Zstd
