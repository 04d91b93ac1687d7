import RemoteCall.Compression.Basic

/-! # Compressors over any library

    What is done around the libraries is enough for three facts.  A compressor
    is ORDERLY: bytes that it does not unpack are refused with one fault
    (`Compressor.Orderly`).  It is BOUNDED: what it unpacks has at most
    `sizeLimit` bytes (`Compressor.Bounded`).  And of a stream it loses nothing
    but what is too long: a text comes out exactly if the reader gives it, in
    whatever pieces, and it is within the limit (`Streams.decompress_eq_ok_iff`).

    Of the library for blocks one property is needed: it gives no more bytes
    than the packed body announces (`Blocks.Within`).  Of the library for
    streams none is.

    A compressor is LOSSLESS when every body within the limit comes back from
    its packed form, which is empty only where the body is
    (`Compressor.Lossless`).  This is all that a round trip of frames needs to
    know of a compressor. -/

namespace RemoteCall.Compression

/-- Bytes that are not unpacked are refused with one fault. -/
def Compressor.Orderly (compressor : Compressor) : Prop :=
  ∀ {packed : Bytes} {fault : Fault},
    compressor.decompress packed = .error fault → fault = .decompression

/-- Whatever is unpacked, at most `sizeLimit` bytes come out, or unpacking fails. -/
def Compressor.Bounded (compressor : Compressor) : Prop :=
  ∀ packed, compressor.decompress packed = .error .decompression
    ∨ ∃ text, compressor.decompress packed = .ok text ∧ text.length ≤ sizeLimit

/-- Bodies of at most `sizeLimit` bytes come back, and only the empty body packs to nothing. -/
structure Compressor.Lossless (compressor : Compressor) : Prop where
  decompress_compress : ∀ {body packed : Bytes}, body.length ≤ sizeLimit →
    compressor.compress body = .ok packed → compressor.decompress packed = .ok body
  packed_ne_nil : ∀ {body packed : Bytes}, body.length ≤ sizeLimit → body ≠ [] →
    compressor.compress body = .ok packed → packed ≠ []

/-- An orderly compressor is bounded as soon as no text that comes out is too long. -/
theorem bounded_of_orderly {compressor : Compressor} (orderly : compressor.Orderly)
    (short : ∀ {packed text : Bytes}, compressor.decompress packed = .ok text →
      text.length ≤ sizeLimit) : compressor.Bounded := by
  intro packed
  cases unpacked : compressor.decompress packed with
  | error fault =>
      obtain rfl := orderly unpacked
      exact .inl rfl
  | ok text => exact .inr ⟨text, rfl, short unpacked⟩

/-! ## Bodies as they are -/

theorem plain_decompress (packed : Bytes) : plain.decompress packed =
    if packed.length ≤ sizeLimit then .ok packed else .error .decompression :=
  rfl

theorem plain_decompress_eq_ok_iff {packed text : Bytes} :
    plain.decompress packed = .ok text ↔ text = packed ∧ packed.length ≤ sizeLimit := by
  rw [plain_decompress]
  by_cases short : packed.length ≤ sizeLimit
  · rw [if_pos short]
    exact ⟨fun same => ⟨(Except.ok.inj same).symm, short⟩, fun same => by rw [same.1]⟩
  · rw [if_neg short]
    exact ⟨fun wrong => (nomatch wrong), fun same => absurd same.2 short⟩

theorem orderly_plain : plain.Orderly := by
  intro packed fault refused
  rw [plain_decompress] at refused
  split at refused
  · exact nomatch refused
  · exact (Except.error.inj refused).symm

/-- Leaving bodies as they are loses nothing. -/
theorem lossless_plain : plain.Lossless where
  decompress_compress short packing := by
    obtain rfl := Except.ok.inj packing
    exact plain_decompress_eq_ok_iff.mpr ⟨rfl, short⟩
  packed_ne_nil _ something packing := by
    obtain rfl := Except.ok.inj packing
    exact something

/-! ## Blocks -/

namespace Blocks

variable {blocks : Blocks} {packed text : Bytes}

/-- No more bytes are unpacked than the packed body announces in front. -/
def Within (blocks : Blocks) : Prop :=
  ∀ {packed text : Bytes}, blocks.unpack? packed = some text →
    text.length ≤ Bytes.ofLittleEndian (packed.take 4)

/-- A packed body that tells no size, or one above the limit. -/
def IsRefused (packed : Bytes) : Prop :=
  packed.length < 4 ∨ sizeLimit < Bytes.ofLittleEndian (packed.take 4)

/-- What is refused never reaches the library. -/
theorem decompress_refused (blocks : Blocks) (refused : IsRefused packed) :
    blocks.decompress packed = .error .decompression := by
  rw [decompress]
  rcases refused with short | claim
  · rw [if_pos short]
  · rw [if_pos claim, ite_self]

/-- Anything else is what the library makes of it. -/
theorem decompress_eq_ok_iff :
    blocks.decompress packed = .ok text
      ↔ ¬ IsRefused packed ∧ blocks.unpack? packed = some text := by
  by_cases refused : IsRefused packed
  · rw [decompress_refused blocks refused]
    exact ⟨fun wrong => (nomatch wrong), fun other => absurd refused other.1⟩
  · rw [decompress, if_neg fun short => refused (.inl short),
      if_neg fun claim => refused (.inr claim)]
    cases blocks.unpack? packed with
    | none => exact ⟨fun wrong => (nomatch wrong), fun other => nomatch other.2⟩
    | some found =>
        exact ⟨fun same => ⟨refused, congrArg some (Except.ok.inj same)⟩,
          fun same => congrArg Except.ok (Option.some.inj same.2)⟩

theorem orderly_compressor (blocks : Blocks) : blocks.compressor.Orderly := by
  intro packed fault failed
  replace failed : blocks.decompress packed = .error fault := failed
  rw [decompress] at failed
  split at failed
  · exact (Except.error.inj failed).symm
  · split at failed
    · exact (Except.error.inj failed).symm
    · split at failed
      · exact nomatch failed
      · exact (Except.error.inj failed).symm

/-- At most the announced number of bytes comes out, and no more than the limit is announced. -/
theorem length_decompress (within : blocks.Within) (unpacked : blocks.decompress packed = .ok text) :
    text.length ≤ Bytes.ofLittleEndian (packed.take 4) ∧ text.length ≤ sizeLimit := by
  obtain ⟨allowed, given⟩ := decompress_eq_ok_iff.mp unpacked
  have announced := within given
  exact ⟨announced, Nat.le_trans announced (Nat.le_of_not_lt fun claim => allowed (.inr claim))⟩

/-- A library that packs a body behind its size and unpacks it again loses nothing. -/
theorem lossless_compressor (blocks : Blocks)
    (told : ∀ body, body.length ≤ sizeLimit →
      4 ≤ (blocks.pack body).length
        ∧ Bytes.ofLittleEndian ((blocks.pack body).take 4) = body.length)
    (back : ∀ body, body.length ≤ sizeLimit → blocks.unpack? (blocks.pack body) = some body) :
    blocks.compressor.Lossless where
  decompress_compress {body _} short packing := by
    obtain rfl := Except.ok.inj packing
    obtain ⟨whole, size⟩ := told body short
    refine decompress_eq_ok_iff.mpr ⟨?_, back body short⟩
    rintro (cut | claim) <;> omega
  packed_ne_nil {body _} short _ packing := by
    obtain rfl := Except.ok.inj packing
    have whole := (told body short).1
    exact List.ne_nil_of_length_pos (by omega)

end Blocks

/-! ## Streams -/

namespace Streams

variable {streams : Streams} {packed text : Bytes}

/-- The text that a reader gives piece by piece, up to an empty one. -/
inductive Gives (streams : Streams) : streams.Reader → Bytes → Prop
  | nothing {reader next : streams.Reader}
      (read : streams.read? reader pieceSize = some ([], next)) : Gives streams reader []
  | piece {reader next : streams.Reader} {b : UInt8} {more rest : Bytes}
      (read : streams.read? reader pieceSize = some (b :: more, next))
      (gives : Gives streams next rest) : Gives streams reader ((b :: more) ++ rest)

/-- Reading on gives what the reader gives, unless that is too much. -/
theorem readOn_eq_ok_iff {before : Nat} (few : before ≤ sizeLimit) {reader : streams.Reader} :
    streams.readOn before reader = .ok text
      ↔ Gives streams reader text ∧ before + text.length ≤ sizeLimit := by
  -- along the loop: what is before a piece is within the limit whenever the piece is asked for
  fun_induction streams.readOn before reader generalizing text with
  | case1 before reader failed =>
      refine ⟨fun wrong => (nomatch wrong), fun ⟨gives, _⟩ => ?_⟩
      cases gives with
      | nothing read => exact nomatch failed.symm.trans read
      | piece read _ => exact nomatch failed.symm.trans read
  | case2 before reader next read =>
      constructor
      · intro same
        obtain rfl := Except.ok.inj same
        exact ⟨.nothing read, few⟩
      · rintro ⟨gives, -⟩
        cases gives with
        | nothing _ => rfl
        | piece other _ => exact nomatch (Option.some.inj (read.symm.trans other))
  | case3 before reader b more next read tooMuch =>
      refine ⟨fun wrong => (nomatch wrong), fun ⟨gives, fits⟩ => ?_⟩
      cases gives with
      | nothing other => exact nomatch (Option.some.inj (read.symm.trans other))
      | piece other _ =>
          obtain ⟨same, -⟩ := Prod.mk.inj (Option.some.inj (read.symm.trans other))
          rw [← same, List.length_append, List.length_cons] at fits
          omega
  | case4 before reader b more next read enough ih =>
      constructor
      · intro same
        cases rest : streams.readOn (before + (more.length + 1)) next with
        | error fault =>
            rw [rest] at same
            exact nomatch same
        | ok found =>
            rw [rest] at same
            obtain rfl := Except.ok.inj same
            obtain ⟨gives, fits⟩ := (ih (Nat.le_of_not_lt enough)).mp rest
            refine ⟨.piece read gives, ?_⟩
            rw [List.length_append, List.length_cons]
            omega
      · rintro ⟨gives, fits⟩
        cases gives with
        | nothing other => exact nomatch (Option.some.inj (read.symm.trans other))
        | @piece _ next' _ _ rest other gives =>
            obtain ⟨same, rfl⟩ := Prod.mk.inj (Option.some.inj (read.symm.trans other))
            rw [← same] at fits ⊢
            rw [List.length_append, List.length_cons] at fits
            rw [(ih (Nat.le_of_not_lt enough)).mpr ⟨gives, by omega⟩]
            rfl

/-- A text comes out of a stream exactly if the stream can be opened, its reader gives the text to
the end, and the text is within the limit. -/
theorem decompress_eq_ok_iff :
    streams.decompress packed = .ok text
      ↔ ∃ reader, streams.open? packed = some reader ∧ Gives streams reader text
          ∧ text.length ≤ sizeLimit := by
  rw [decompress]
  cases opened : streams.open? packed with
  | none => exact ⟨fun wrong => (nomatch wrong), fun ⟨_, other, _⟩ => nomatch other⟩
  | some reader =>
      dsimp only
      rw [readOn_eq_ok_iff (Nat.zero_le _), Nat.zero_add]
      constructor
      · rintro ⟨gives, fits⟩
        exact ⟨reader, rfl, gives, fits⟩
      · rintro ⟨other, same, gives, fits⟩
        obtain rfl := Option.some.inj same
        exact ⟨gives, fits⟩

theorem readOn_eq_error {before : Nat} {reader : streams.Reader} {fault : Fault}
    (failed : streams.readOn before reader = .error fault) : fault = .decompression := by
  fun_induction streams.readOn before reader with
  | case1 => exact (Except.error.inj failed).symm
  | case2 => exact nomatch failed
  | case3 => exact (Except.error.inj failed).symm
  | case4 before reader b more next read enough ih =>
      cases rest : streams.readOn (before + (more.length + 1)) next with
      | error other =>
          rw [rest] at failed
          obtain rfl : other = fault := Except.error.inj failed
          exact ih rest
      | ok found =>
          rw [rest] at failed
          exact nomatch failed

theorem orderly_compressor (streams : Streams) : streams.compressor.Orderly := by
  intro packed fault failed
  replace failed : streams.decompress packed = .error fault := failed
  rw [decompress] at failed
  cases opened : streams.open? packed with
  | none =>
      rw [opened] at failed
      exact (Except.error.inj failed).symm
  | some reader =>
      rw [opened] at failed
      exact readOn_eq_error failed

/-- A library whose readers give back what was packed loses nothing. -/
theorem lossless_compressor (streams : Streams)
    (back : ∀ {body packed : Bytes}, body.length ≤ sizeLimit → streams.pack? body = some packed →
      packed ≠ [] ∧ ∃ reader, streams.open? packed = some reader ∧ Gives streams reader body) :
    streams.compressor.Lossless := by
  have packing {body packed : Bytes} (packs : streams.compressor.compress body = .ok packed) :
      streams.pack? body = some packed := by
    dsimp only [compressor] at packs
    cases found : streams.pack? body with
    | none =>
        rw [found] at packs
        exact nomatch packs
    | some other =>
        rw [found] at packs
        rw [Except.ok.inj packs]
  refine ⟨fun short packs => ?_, fun short _ packs => (back short (packing packs)).1⟩
  obtain ⟨-, reader, opened, gives⟩ := back short (packing packs)
  exact decompress_eq_ok_iff.mpr ⟨reader, opened, gives, short⟩

end Streams

/-! ## Methods -/

theorem Libraries.orderly_compressor (libraries : Libraries) (method : Method) :
    (libraries.compressor method).Orderly := by
  cases method with
  | none => exact orderly_plain
  | lz4 => exact libraries.lz4.orderly_compressor
  | zstd => exact libraries.zstd.orderly_compressor

theorem Libraries.bounded_compressor {libraries : Libraries} (within : libraries.lz4.Within)
    (method : Method) : (libraries.compressor method).Bounded := by
  refine bounded_of_orderly (libraries.orderly_compressor method) fun unpacked => ?_
  cases method with
  | none =>
      obtain ⟨rfl, short⟩ := plain_decompress_eq_ok_iff.mp unpacked
      exact short
  | lz4 => exact (Blocks.length_decompress within unpacked).2
  | zstd =>
      obtain ⟨reader, -, -, short⟩ := Streams.decompress_eq_ok_iff.mp unpacked
      exact short

end RemoteCall.Compression
