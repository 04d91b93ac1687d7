import RemoteCall.Bytes

/-!
# UTF-8

`Utf8.decode` turns bytes into a text. Where they are no UTF-8, it tells the first place that is at
fault: how many bytes before it are good, and how many bytes the bad sequence has, which is unknown
when the bytes end inside a sequence that could still have become good.
-/

namespace RemoteCall.Utf8

/-- The first place where bytes stop being UTF-8. -/
structure Flaw where
  /-- How many bytes before it are good. -/
  start : Nat
  /-- The length of the bad sequence, or `none` where the bytes end inside a sequence. -/
  length? : Option Nat
  deriving DecidableEq, Repr

/-- The wording of a flaw. -/
def Flaw.message (flaw : Flaw) : String :=
  match flaw.length? with
  | some length =>
    "invalid utf-8 sequence of " ++ toString length ++ " bytes from index " ++ toString flaw.start
  | none => "incomplete utf-8 byte sequence from index " ++ toString flaw.start

/-- How many bytes a sequence has, by its first byte; zero for a byte that starts none. -/
def width (first : UInt8) : Nat :=
  if first < 0x80 then 1
  else if 0xc2 ≤ first && first ≤ 0xdf then 2
  else if 0xe0 ≤ first && first ≤ 0xef then 3
  else if 0xf0 ≤ first && first ≤ 0xf4 then 4
  else 0

/-- Whether a byte continues a sequence. -/
def continues (b : UInt8) : Bool :=
  0x80 ≤ b && b ≤ 0xbf

/-- Whether a byte may come second behind a given first byte: no sequence is longer than needed,
spells half of a surrogate pair or lies beyond the last code point. -/
def second (first b : UInt8) : Bool :=
  if first = 0xe0 then 0xa0 ≤ b && b ≤ 0xbf
  else if first = 0xed then 0x80 ≤ b && b ≤ 0x9f
  else if first = 0xf0 then 0x90 ≤ b && b ≤ 0xbf
  else if first = 0xf4 then 0x80 ≤ b && b ≤ 0x8f
  else continues b

/-- What is wrong with the sequence at the front of some bytes: `none` for nothing, else the length
of the bad sequence as a flaw has it. -/
def sequenceFlaw? : Bytes → Option (Option Nat)
  | [] => none
  | first :: rest =>
    match width first, rest with
    | 1, _ => none
    | 0, _ => some (some 1)
    | _, [] => some none
    | size, b :: rest =>
      if !second first b then some (some 1)
      else match size, rest with
        | 2, _ => none
        | _, [] => some none
        | size, c :: rest =>
          if !continues c then some (some 2)
          else match size, rest with
            | 3, _ => none
            | _, [] => some none
            | _, d :: _ => if continues d then none else some (some 3)

/-- The first flaw of bytes that are known to have one, where `start` good bytes came before. The
first argument skips the bytes of a sequence already seen. -/
def firstFlaw : Nat → Nat → Bytes → Flaw
  | _, start, [] => ⟨start, none⟩
  | skip + 1, start, _ :: rest => firstFlaw skip (start + 1) rest
  | 0, start, first :: rest =>
    match sequenceFlaw? (first :: rest) with
    | some length? => ⟨start, length?⟩
    | none => firstFlaw (width first - 1) (start + 1) rest

/-- The text that bytes spell, or their first flaw. -/
def decode (bytes : Bytes) : Except Flaw String :=
  match String.fromUTF8? bytes.toByteArray with
  | some text => .ok text
  | none => .error (firstFlaw 0 0 bytes)

/-- The bytes of a text spell that text. -/
@[simp] theorem decode_ofText (text : String) : decode (Bytes.ofText text) = .ok text := by
  have same : (Bytes.ofText text).toByteArray = text.toByteArray := by
    apply ByteArray.ext
    apply Array.toList_inj.mp
    rw [List.toList_data_toByteArray, Bytes.ofText]
  have read : String.fromUTF8? (Bytes.ofText text).toByteArray = some text := by
    rw [same, String.fromUTF8?, dif_pos text.isValidUTF8]
    rfl
  rw [decode, read]

/-- Bytes that spell a text are the bytes of that text. -/
theorem eq_ofText_of_decode {bytes : Bytes} {text : String} (h : decode bytes = .ok text) :
    bytes = Bytes.ofText text := by
  rw [decode, String.fromUTF8?] at h
  by_cases valid : bytes.toByteArray.IsValidUTF8
  · rw [dif_pos valid] at h
    cases h
    exact List.toList_data_toByteArray.symm
  · rw [dif_neg valid] at h
    cases h

end RemoteCall.Utf8
