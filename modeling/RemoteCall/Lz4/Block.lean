import RemoteCall.Compression.Basic
import RemoteCall.Compression.Window

/-!
# LZ4 blocks

A packed body is the size of the text in four bytes, least significant first, and a block. A block is
a list of sequences: a token with two lengths of four bits, a run of new bytes, and a repetition given
by its distance in two bytes. A length of fifteen goes on in the bytes that follow, as long as these
are 255, and a repetition is four bytes longer than its length says. The last sequence ends with its
new bytes.

`unpack?` gives no more bytes than the size announces (`length_unpack?`); it takes fewer. The two are
one library for blocks (`Lz4.blocks`): what is done around it does not depend on it.
-/

namespace RemoteCall.Lz4

open Compression

/-! ## Unpacking -/

/-- A length that goes on in bytes of 255. -/
def longLength (sum : Nat) : Bytes → Option (Nat × Bytes)
  | [] => none
  | b :: rest => if b = 255 then longLength (sum + 255) rest else some (sum + b.toNat, rest)

/-- A length whose first four bits are known. -/
def length? (nibble : Nat) (bytes : Bytes) : Option (Nat × Bytes) :=
  if nibble = 15 then longLength 15 bytes else some (nibble, bytes)

/-- Adds the sequences of a block to an array of at most `limit` bytes. Every sequence takes at least
one byte, so the number of bytes bounds that of sequences. -/
def sequences (limit : Nat) : Nat → Bytes → ByteArray → Option ByteArray
  | 0, _, _ => none
  | _ + 1, [], _ => none
  | fuel + 1, token :: rest, out =>
    match length? (token.toNat / 16) rest with
    | none => none
    | some (literals, rest) =>
      match Bytes.cut? literals rest with
      | none => none
      | some (new, rest) =>
        if limit < out.size + new.length then none
        else
          let out := append out new
          match rest with
          | [] => some out
          | [_] => none
          | low :: high :: rest =>
            let offset := low.toNat + 256 * high.toNat
            match length? (token.toNat % 16) rest with
            | none => none
            | some (length, rest) =>
              if offset = 0 || out.size < offset || limit < out.size + (length + 4) then none
              else sequences limit fuel rest (copyBack offset (length + 4) out)

/-- The text of a packed body. -/
def unpack? (bytes : Bytes) : Option Bytes :=
  match Bytes.cut? 4 bytes with
  | none => none
  | some (size, block) =>
    (sequences (Bytes.ofLittleEndian size) (block.length + 1) block ByteArray.empty).map Bytes.ofArray

theorem size_sequences {limit fuel : Nat} {bytes : Bytes} {out result : ByteArray}
    (h : sequences limit fuel bytes out = some result) : result.size ≤ limit := by
  induction fuel generalizing bytes out with
  | zero => simp [sequences] at h
  | succ fuel ih =>
    cases bytes with
    | nil => simp [sequences] at h
    | cons token rest =>
      simp only [sequences] at h
      split at h
      · cases h
      · split at h
        · cases h
        · split at h
          · cases h
          · next fits =>
            split at h
            · cases h
              rw [size_append]
              omega
            · cases h
            · split at h
              · cases h
              · split at h
                · cases h
                · exact ih h

/-- An unpacked body has at most as many bytes as its size announces. -/
theorem length_unpack? {bytes text : Bytes} (h : unpack? bytes = some text) :
    text.length ≤ Bytes.ofLittleEndian (bytes.take 4) := by
  rw [unpack?, Bytes.cut?_eq] at h
  split at h
  · cases h
  · next size block cut =>
    split at cut
    · obtain ⟨rfl, rfl⟩ := Prod.mk.inj (Option.some.inj cut)
      obtain ⟨out, found, rfl⟩ := Option.map_eq_some_iff.mp h
      rw [Bytes.length_ofArray]
      exact size_sequences found
    · cases cut

/-! ## Packing -/

/-- The bytes with which a length goes on behind its four bits. -/
def writeLong (length : Nat) : Bytes :=
  if length < 15 then []
  else List.replicate ((length - 15) / 255) 255 ++ [UInt8.ofNat ((length - 15) % 255)]

/-- A token of two lengths. -/
def token (literals length : Nat) : UInt8 :=
  UInt8.ofNat (min literals 15 * 16 + min length 15)

/-- The bytes of a sequence with a repetition. -/
def writeStep (data : ByteArray) (step : Step) : Bytes :=
  token step.literals (step.length - 4) :: (writeLong step.literals
    ++ slice data step.start step.literals ++ Bytes.littleEndian 2 step.offset
    ++ writeLong (step.length - 4))

/-- The bytes of the last sequence. -/
def writeLast (data : ByteArray) (start : Nat) : Bytes :=
  let literals := data.size - start
  token literals 0 :: (writeLong literals ++ slice data start literals)

/-- What a block can express: the last repetition starts twelve bytes before the end at the latest,
and the last five bytes are new. -/
def limits : Limits := ⟨4, 65535, 12, 5⟩

/-- A body, packed. -/
def pack (bytes : Bytes) : Bytes :=
  let data := Bytes.toArray bytes
  let (found, start) := steps limits data
  Bytes.littleEndian 4 data.size ++ found.toList.flatMap (writeStep data) ++ writeLast data start

/-- Packing and unpacking of LZ4 blocks. -/
def blocks : Blocks :=
  ⟨pack, unpack?⟩

end RemoteCall.Lz4
