import RemoteCall.Blob.Reader
import RemoteCall.Proofs.Reader

/-! # The parts of a blob read back

    Every part of a blob tells its own length: numbers by their mark, texts and
    lists by the number in front of them, options by their tag.  So each reader
    takes exactly what the writer beside it wrote, whatever follows
    (`takes_readNat`, `takes_readText`, `takes_readList`, `takes_readOption`),
    and a whole blob leaves nothing over (`ofBytes_of_takes`).

    Numbers travel in at most eight bytes; the lengths of texts and lists are
    such numbers, which is what the bounds are about. -/

namespace RemoteCall.Blob

/-! ## Lengths -/

theorem one_le_writeNat (n : Nat) : 1 ≤ (writeNat n).length := by
  rw [writeNat]
  repeat' split
  all_goals exact Nat.succ_le_succ (Nat.zero_le _)

@[simp] theorem length_ofText (text : String) :
    (Bytes.ofText text).length = text.utf8ByteSize := by
  rw [Bytes.ofText, Array.length_toList]
  rfl

theorem utf8ByteSize_le_writeText (text : String) :
    text.utf8ByteSize ≤ (writeText text).length := by
  rw [writeText, List.length_append, length_ofText]
  omega

theorem one_le_writeText (text : String) : 1 ≤ (writeText text).length := by
  have := one_le_writeNat text.utf8ByteSize
  rw [writeText, List.length_append]
  omega

theorem length_le_writeBytes (bytes : Bytes) : bytes.length ≤ (writeBytes bytes).length := by
  rw [writeBytes, List.length_append]
  omega

section Lists

variable {α : Type} (writeItem : α → Bytes)

/-- An item is no longer than the list. -/
theorem length_le_writeList {items : List α} {item : α} (mem : item ∈ items) :
    (writeItem item).length ≤ (writeList writeItem items).length := by
  obtain ⟨before, after, rfl⟩ := List.append_of_mem mem
  simp only [writeList, List.flatMap_append, List.flatMap_cons, List.length_append]
  omega

/-- Items that have bytes are no more than the bytes of the list. -/
theorem length_items_le_writeList (items : List α)
    (bytes : ∀ item, 1 ≤ (writeItem item).length) :
    items.length ≤ (writeList writeItem items).length := by
  have each : items.length ≤ (items.flatMap writeItem).length := by
    induction items with
    | nil => exact Nat.le_refl _
    | cons item items ih =>
        have one := bytes item
        rw [List.flatMap_cons, List.length_append, List.length_cons]
        omega
  rw [writeList, List.length_append]
  omega

end Lists

/-! ## Numbers and texts -/

/-- Bytes of a known number are taken whatever they are. -/
theorem takes_take {n : Nat} (missing : Flaw) {bytes : Bytes} (h : bytes.length = n) :
    Takes (take n missing) bytes bytes := by
  intro rest
  rw [take, ← h, Bytes.cut?_append]

theorem takes_readByte (b : UInt8) : Takes readByte [b] b :=
  fun _ => rfl

theorem takes_readFixed (width : Nat) {n : Nat} (h : n < 256 ^ width) :
    Takes (readFixed width) (Bytes.littleEndian width n) n := by
  have back : Bytes.ofLittleEndian (Bytes.littleEndian width n) = n := by
    rw [Bytes.ofLittleEndian_littleEndian, Nat.mod_eq_of_lt h]
  have whole := (takes_take .endOfNumber
    (Bytes.length_littleEndian width n)).last (g := Bytes.ofLittleEndian)
  rw [back] at whole
  exact whole

/-- A mark decides how the number behind it is read. -/
theorem readNat_cons (wide : Bool) (mark : UInt8) (bytes : Bytes) :
    readNat wide (mark :: bytes) =
      (if mark < 251 then pure mark.toNat
        else if mark = 251 then readFixed 2
        else if mark = 252 then readFixed 4
        else if mark = 253 then readFixed 8
        else if mark = 254 then if wide then readFixed 16 else throw .wideNumber
        else throw .reservedMark : Reader Nat) bytes := by
  rw [readNat, bind_of_ok (a := mark) (s := bytes) rfl]

/-- A number is read back from its shortest form, where a number of its size is allowed. -/
theorem takes_writeNat (wide : Bool) {n : Nat} (h : n < if wide then 2 ^ 128 else 2 ^ 64) :
    Takes (readNat wide) (writeNat n) n := by
  intro rest
  -- the writer takes the first width that is enough, and its mark is the one the reader asks for
  rw [writeNat]
  by_cases h1 : n < 251
  · have small : (UInt8.ofNat n).toNat = n := UInt8.toNat_ofNat_of_lt' (by show n < 256; omega)
    have below : UInt8.ofNat n < 251 := by
      rw [UInt8.lt_iff_toNat_lt, small]
      exact h1
    rw [if_pos h1, List.singleton_append, readNat_cons, if_pos below, small]
    rfl
  · rw [if_neg h1]
    by_cases h2 : n < 2 ^ 16
    · rw [if_pos h2, List.cons_append, readNat_cons]
      exact takes_readFixed 2 h2 rest
    · rw [if_neg h2]
      by_cases h4 : n < 2 ^ 32
      · rw [if_pos h4, List.cons_append, readNat_cons]
        exact takes_readFixed 4 h4 rest
      · rw [if_neg h4]
        by_cases h8 : n < 2 ^ 64
        · rw [if_pos h8, List.cons_append, readNat_cons]
          exact takes_readFixed 8 h8 rest
        · cases wide with
          | false => exact absurd h h8
          | true =>
              rw [if_neg h8, List.cons_append, readNat_cons]
              exact takes_readFixed 16 h rest

theorem takes_readNat {n : Nat} (h : n < 2 ^ 64) : Takes (readNat false) (writeNat n) n :=
  takes_writeNat false h

theorem takes_readText {text : String} (h : text.utf8ByteSize < 2 ^ 64) :
    Takes readText (writeText text) text := by
  refine (takes_readNat h).bind ?_
  intro rest
  rw [bind_of_ok (takes_take _ (length_ofText text) rest), Utf8.decode_ofText]
  rfl

/-! ## Lists and options -/

section Lists

variable {α : Type} {readItem : Reader α} {writeItem : α → Bytes}

/-- Items that are taken one by one are taken as many as there are. -/
theorem readMany_flatMap {items : List α}
    (h : ∀ item ∈ items, Takes readItem (writeItem item) item) (found : List α) (rest : Bytes) :
    readMany readItem items.length found (items.flatMap writeItem ++ rest)
      = .ok (found.reverse ++ items, rest) := by
  induction items generalizing found with
  | nil => simp [readMany]
  | cons item items ih =>
      have head := h item (List.mem_cons_self ..)
      -- the reader keeps what it found in reverse, so the item moves to the found ones
      have tail := ih (fun other mem => h other (List.mem_cons_of_mem item mem)) (item :: found)
      rw [List.flatMap_cons, List.append_assoc, List.length_cons, readMany, head]
      show readMany readItem items.length (item :: found) (items.flatMap writeItem ++ rest) = _
      rw [tail, List.reverse_cons, List.append_assoc, List.singleton_append]

theorem takes_readList {items : List α}
    (h : ∀ item ∈ items, Takes readItem (writeItem item) item)
    (short : items.length < 2 ^ 64) :
    Takes (readList readItem) (writeList writeItem items) items := by
  refine (takes_readNat short).bind ?_
  intro rest
  exact readMany_flatMap h [] rest

end Lists

theorem takes_readBytes {bytes : Bytes} (short : bytes.length < 2 ^ 64) :
    Takes (readList readByte) (writeBytes bytes) bytes := by
  have items := takes_readList (fun b (_ : b ∈ bytes) => takes_readByte b) short
  rw [writeList, List.flatMap_singleton'] at items
  exact items

/-- The value behind the tag of an option, or none. -/
theorem takes_readOption {α : Type} {readItem : Reader α} {writeItem : α → Bytes}
    {value : Option α} (h : ∀ item ∈ value, Takes readItem (writeItem item) item) :
    Takes (readOption readItem)
      (match value with
        | none => [0]
        | some item => 1 :: writeItem item) value := by
  cases value with
  | none => exact fun rest => rfl
  | some item =>
      intro rest
      have found := h item rfl rest
      rw [List.cons_append, readOption, bind_of_ok (a := 1) rfl]
      show (readItem >>= fun item => pure (some item)) (writeItem item ++ rest) = _
      rw [bind_of_ok found]
      rfl

/-- Bytes that a reader takes leave nothing over. -/
theorem readAll_of_takes {α : Type} {reader : Reader α} {bytes : Bytes} {value : α}
    (h : Takes reader bytes value) : readAll reader bytes = .ok value := by
  have whole := h []
  rw [List.append_nil] at whole
  rw [readAll, whole]

/-- A blob that a reader takes whole is the blob of its value. -/
theorem ofBytes_of_takes {α : Type} {reader : Reader α} {bytes : Bytes} {value : α}
    (h : Takes reader bytes value) : ofBytes reader bytes = .ok value := by
  rw [ofBytes, readAll_of_takes h]
  rfl

end RemoteCall.Blob
