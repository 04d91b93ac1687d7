import RemoteCall.Proofs.Compression.Compressors
import RemoteCall.Proofs.Zstd.Blocks

/-! # Frames of blocks give back their text

    Packing collects blocks in reverse.  Blocks LEAD to a place of the text
    when each of them moves the output on from where the one before stopped
    (`Leads`); steps that divide the text do (`leads_foldl`), and the plain
    blocks behind them end with the last one.  Reading follows
    (`readBlocks?_leads`), so the frame gives the text back (`unpack?_pack`). -/

namespace RemoteCall.Zstd

open Compression

/-! ## Blocks in reverse -/

/-- Blocks, none of them the last one, that lead from the start of a text to a place; the latest
block stands first. -/
inductive Leads (text : Bytes) : List Bytes → Nat → Prop
  | nil : Leads text [] 0
  | cons {block : Bytes} {blocks : List Bytes} {start stop : Nat} (before : Leads text blocks start)
      (moves : Moves text false block start stop) : Leads text (block :: blocks) stop

section Writing

variable {data : ByteArray} {blocks : List Bytes}

/-- Plain blocks lead to the end of their part of the text; the one marked as the last may be. -/
theorem leads_plainBlocks (last : Bool) (fuel length : Nat) {start : Nat}
    (before : Leads (Bytes.ofArray data) blocks start) (inside : start + length ≤ data.size)
    (enough : length < fuel) :
    ∃ block rest middle, plainBlocks data last fuel start length blocks = block :: rest
      ∧ Leads (Bytes.ofArray data) rest middle
      ∧ Moves (Bytes.ofArray data) last block middle (start + length) := by
  induction fuel generalizing start length blocks with
  | zero => exact absurd enough (Nat.not_lt_zero _)
  | succ fuel ih =>
      rw [plainBlocks]
      by_cases few : length ≤ 65536
      · rw [if_pos few]
        exact ⟨_, blocks, start, rfl, before, moves_plainBlock data last start few inside⟩
      · rw [if_neg few]
        have full := moves_plainBlock data false start (Nat.le_refl 65536)
          (by omega)
        have rest := ih (length - 65536) (before.cons full)
          (by omega) (by omega)
        rw [show start + 65536 + (length - 65536) = start + length by omega] at rest
        exact rest

/-- The blocks of a step lead to its stop. -/
theorem leads_writeStep {step : Step} (fits : step.Fits limits (Bytes.ofArray data))
    (before : Leads (Bytes.ofArray data) blocks step.start) :
    Leads (Bytes.ofArray data) (writeStep data blocks step) step.stop := by
  rw [writeStep]
  by_cases few : step.literals ≤ 65536
  · rw [if_pos few]
    exact before.cons (moves_packedBlock fits few)
  · rw [if_neg few]
    have inside := fits.inside
    rw [Bytes.length_ofArray, Step.stop] at inside
    obtain ⟨block, rest, middle, eq, leads, moves⟩ := leads_plainBlocks false
      (step.literals + 1) step.literals before (by omega) (Nat.lt_succ_self _)
    rw [eq]
    -- the new bytes stand in plain blocks, so the packed block has none of them left
    have bare : Step.Fits limits (Bytes.ofArray data)
        { step with start := step.start + step.literals, literals := 0 } :=
      ⟨fits.least, fits.most, fits.positive, fits.within, fits.near, fits.inside, fits.repeats⟩
    exact (leads.cons moves).cons (moves_packedBlock bare (Nat.zero_le _))

theorem Leads.length_le {text : Bytes} {stop : Nat} (h : Leads text blocks stop) :
    blocks.length ≤ blocks.reverse.flatten.length := by
  induction h with
  | nil => exact Nat.le_refl 0
  | cons before moves ih =>
      have three := moves.three
      rw [List.reverse_cons, List.flatten_append, List.flatten_singleton, List.length_append,
        List.length_cons]
      omega

theorem leads_foldl {start stop : Nat} {steps : List Step}
    (divides : Divides limits (Bytes.ofArray data) start steps stop)
    (before : Leads (Bytes.ofArray data) blocks start) :
    Leads (Bytes.ofArray data) (steps.foldl (writeStep data) blocks) stop := by
  induction divides generalizing blocks with
  | nil place => exact before
  | cons fits rest ih => exact ih (leads_writeStep fits before)

end Writing

/-! ## Reading blocks -/

section Reading

variable {input : ByteArray} {text : Bytes}

/-- A block is read, and where it is not the last, those behind it follow. -/
theorem readBlocks?_moves {last : Bool} {block : Bytes} {start stop place : Nat} {memory : Memory}
    (moves : Moves text last block start stop) (stands : Stands input place block)
    (reached : Reaches text start memory.out) :
    ∃ next, Reaches text stop next.out ∧ ∀ fuel,
      readBlocks? input plainFrame 0 (fuel + 1) place memory
        = if last then some (next.out, place + block.length)
          else readBlocks? input plainFrame 0 fuel (place + block.length) next := by
  obtain ⟨next, read, moved⟩ := moves.read stands reached
  have three := moves.three
  have room := stands.le_size
  refine ⟨next, moved, fun fuel => ?_⟩
  rw [readBlocks?, if_neg (by omega)]
  dsimp only
  rw [read]
  dsimp only
  rw [moves.mark stands]
  cases last <;> rfl

/-- Blocks that lead to a place are read up to it. -/
theorem readBlocks?_leads {blocks : List Bytes} {stop place : Nat} (memory : Memory)
    (leads : Leads text blocks stop) (stands : Stands input place blocks.reverse.flatten)
    (reached : Reaches text 0 memory.out) :
    ∃ next, Reaches text stop next.out ∧ ∀ fuel,
      readBlocks? input plainFrame 0 (blocks.length + fuel) place memory
        = readBlocks? input plainFrame 0 fuel (place + blocks.reverse.flatten.length) next := by
  induction leads with
  | nil => exact ⟨memory, reached, fun fuel => by rw [List.length_nil, Nat.zero_add]; rfl⟩
  | @cons block blocks start stop before moves ih =>
      rw [List.reverse_cons, List.flatten_append, List.flatten_singleton] at stands ⊢
      obtain ⟨middle, half, first⟩ := ih stands.left
      obtain ⟨next, moved, second⟩ := readBlocks?_moves moves stands.right half
      refine ⟨next, moved, fun fuel => ?_⟩
      rw [List.length_cons, Nat.add_right_comm, Nat.add_assoc, first, second, List.length_append,
        Nat.add_assoc]
      rfl

end Reading

/-! ## Frames -/

section Frames

variable {input : ByteArray}

/-- The header that packing writes is read as it is meant. -/
theorem readHeader?_plainFrame {rest : Bytes} (stands : Stands input 4 (0x00 :: 0x38 :: rest)) :
    readHeader? input 4 = some plainFrame := by
  have room := stands.le_size
  rw [List.length_cons, List.length_cons] at room
  have form : (byteAt input 4).toNat = 0 := by rw [stands.head]; rfl
  have window : (byteAt input (4 + 1)).toNat = 0x38 := by rw [stands.tail.head]; rfl
  have absent (place : Nat) : numberAt input place 0 = 0 := Nat.mod_one _
  have described : windowOf? 0x38 = some 131072 := rfl
  have width : #[0, 1, 2, 4].getD 0 0 = 0 := rfl
  have enough : ¬ input.size ≤ 4 := by omega
  have inside : ¬ input.size < 6 := by omega
  have allowed : ¬ maxWindow < 131072 := by decide
  rw [readHeader?]
  simp [form, window, absent, described, width, enough, inside, allowed, plainFrame]

/-- A frame of blocks that lead to the end gives the text. -/
theorem readFrame?_leads {text : Bytes} {blocks : List Bytes} {block : Bytes} {middle : Nat}
    (leads : Leads text blocks middle)
    (last : Moves text true block middle text.length)
    (stands : Stands input 4 ([0x00, 0x38] ++ (blocks.reverse.flatten ++ block))) :
    ∃ out, Reaches text text.length out
      ∧ readFrame? input 4 ByteArray.empty
        = some (out, 6 + blocks.reverse.flatten.length + block.length) := by
  have room := stands.le_size
  have three := last.three
  have counted := leads.length_le
  rw [List.length_append, List.length_append] at room
  obtain ⟨half, reached, first⟩ := readBlocks?_leads
    ⟨ByteArray.empty, none, none, Recent.start⟩ leads stands.right.left (reaches_empty text)
  obtain ⟨next, whole, done⟩ := readBlocks?_moves last stands.right.right reached
  refine ⟨next.out, whole, ?_⟩
  -- every block takes at least three bytes, so the fuel is enough for all of them
  have fuel : input.size = blocks.length + (input.size - blocks.length - 1 + 1) := by omega
  have read : readBlocks? input plainFrame 0 input.size 6
      ⟨ByteArray.empty, none, none, Recent.start⟩
      = some (next.out, 6 + blocks.reverse.flatten.length + block.length) := by
    rw [fuel]
    exact (first _).trans (done _)
  rw [readFrame?, readHeader?_plainFrame stands]
  simp only [Option.bind_eq_bind, Option.bind_some]
  show (readBlocks? input plainFrame 0 input.size 6
    ⟨ByteArray.empty, none, none, Recent.start⟩).bind _ = _
  rw [read]
  rfl

end Frames

/-- Every body comes back from its packed form. -/
theorem unpack?_pack (body : Bytes) : unpack? (pack body) = some body := by
  have divides := divides_steps limits (by decide) (Bytes.toArray body)
  have inside := divides.le_length (Nat.zero_le _)
  rw [Bytes.length_ofArray] at inside
  -- first the blocks of the steps, then plain blocks for the bytes behind them
  have before := leads_foldl divides .nil
  rw [Array.foldl_toList] at before
  obtain ⟨block, blocks, middle, eq, leads, last⟩ := leads_plainBlocks true
    ((Bytes.toArray body).size - (steps limits (Bytes.toArray body)).2 + 1)
    ((Bytes.toArray body).size - (steps limits (Bytes.toArray body)).2) before (by omega)
    (Nat.lt_succ_self _)
  rw [Nat.add_sub_cancel' inside, ← Bytes.length_ofArray] at last
  rw [Bytes.ofArray_toArray] at leads last
  have packed : pack body
      = mark ++ ([0x00, 0x38] ++ (blocks.reverse.flatten ++ block)) := by
    rw [pack]
    dsimp only
    rw [eq, List.reverse_cons, List.flatten_append, List.flatten_singleton, frameHeader,
      List.append_assoc]
  have stands : Stands (Bytes.toArray (pack body)) 0
      (mark ++ ([0x00, 0x38] ++ (blocks.reverse.flatten ++ block))) :=
    ⟨[], [], by rw [Bytes.ofArray_toArray, packed, List.append_nil]; rfl, rfl⟩
  have size : (Bytes.toArray (pack body)).size
      = 6 + blocks.reverse.flatten.length + block.length := by
    rw [← Bytes.length_ofArray, Bytes.ofArray_toArray, packed]
    simp only [List.length_append, mark, List.length_cons, List.length_nil]
    omega
  obtain ⟨out, whole, read⟩ := readFrame?_leads leads last stands.right
  -- the frame is all there is: reading stops where the input ends
  have marked : numberAt (Bytes.toArray (pack body)) 0 4 = 0xfd2fb528 :=
    stands.left.numberAt (by decide)
  rw [unpack?, readFrames?, if_neg (by omega), marked]
  dsimp only
  rw [if_pos rfl, Nat.zero_add, read]
  dsimp only
  rw [if_pos size.symm, Option.map_some, whole.eq]

/-- What is left of a text is read in pieces, and nothing is at its end. -/
theorem gives_streams (text : Bytes) : Streams.Gives streams text text := by
  induction size : text.length using Nat.strongRecOn generalizing text with
  | ind count ih =>
      cases text with
      | nil => exact .nothing rfl
      | cons b more =>
          have shorter : (more.drop 8191).length < count := by
            rw [← size, List.length_drop, List.length_cons]
            omega
          have rest := ih _ shorter (more.drop 8191) rfl
          have whole : b :: more = (b :: more.take 8191) ++ more.drop 8191 := by
            rw [List.cons_append, List.take_append_drop]
          rw [whole]
          exact .piece (by rw [← whole]; rfl) rest

/-- Packing into frames loses nothing. -/
theorem lossless_streams : streams.compressor.Lossless := by
  refine streams.lossless_compressor fun {body packed} _ packing => ?_
  obtain rfl : pack body = packed := Option.some.inj packing
  exact ⟨List.cons_ne_nil _ _, body, unpack?_pack body, gives_streams body⟩

end RemoteCall.Zstd
