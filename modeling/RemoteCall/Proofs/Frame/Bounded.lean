import RemoteCall.Proofs.Frame.Decoding
import RemoteCall.Proofs.Lz4.Block

/-! # Serializers are handed short bodies

    The compressors are bounded over any libraries, as long as the one for
    blocks keeps to the size that it was told (`Libraries.bounded_compressor`).
    Decoding hands a serializer what a compressor gave and nothing else: that is
    told by the buffer (`Codec.Hands`), and what serializers do with anything
    that is not handed to them changes no decoding (`decode_congr`).  So the
    bound holds of all that a serializer is handed (`handed_bounded`). -/

namespace RemoteCall

namespace Extension

open Compression

/-- The names of the wire are registered for the compressors over some libraries, whatever the
formats are registered for. -/
def Catalogue.Unpacks (catalogue : Catalogue) (libraries : Libraries) : Prop :=
  ∀ method : Compression.Method,
    catalogue.compressors.value method.name = .ok (libraries.compressor method)

theorem bounded_of_unpacks {catalogue : Catalogue} {libraries : Libraries}
    (unpacks : catalogue.Unpacks libraries) (within : libraries.lz4.Within) {code : UInt8}
    {compressor : Compressor} (found : catalogue.compressor code = .ok compressor) :
    compressor.Bounded := by
  rw [Catalogue.compressor, Catalogue.compressionName] at found
  cases known : Compression.Method.ofCode? code with
  | none =>
      rw [known] at found
      cases found
  | some method =>
      rw [known] at found
      obtain rfl := Except.ok.inj ((unpacks method).symm.trans found)
      exact Libraries.bounded_compressor within method

end Extension

namespace Frame

open Extension Compression

namespace Codec

/-! ## What is handed to a serializer -/

/-- A buffer starts with a whole frame of a call, and the serializer with a number is handed what
its packed body unpacks to. -/
inductive Hands (codec : Codec) (buffer : Bytes) (format : UInt8) (kind : Kind) (plain : Bytes) :
    Prop
  | intro {length : Nat} {code compression : UInt8} {id packed : Bytes} {compressor : Compressor}
      (known : frameLength codec.limit buffer = .ok (some length))
      (whole : length ≤ buffer.length)
      (content : (buffer.take length).drop 9 = code :: format :: compression :: (id ++ packed))
      (four : id.length = 4) (isKind : Kind.ofCode? code = some kind)
      (call : kind.isHeartbeat = false) (body : packed ≠ [])
      (found : codec.catalogue.compressor compression = .ok compressor)
      (unpacked : compressor.decompress packed = .ok plain)

/-- Two codecs differ in nothing but what their serializers do with bodies that are not handed to
them. -/
structure Agrees (codec other : Codec) (handed : UInt8 → Kind → Bytes → Prop) : Prop where
  limit : other.limit = codec.limit
  compressor : ∀ code, other.catalogue.compressor code = codec.catalogue.compressor code
  missing : ∀ {format fault}, codec.catalogue.serializer format = .error fault →
    other.catalogue.serializer format = .error fault
  read : ∀ {format serializer}, codec.catalogue.serializer format = .ok serializer →
    ∃ serializer', other.catalogue.serializer format = .ok serializer'
      ∧ ∀ kind plain, handed format kind plain →
        serializer'.read kind plain = serializer.read kind plain

section Agrees

variable {codec other : Codec} {handed : UInt8 → Kind → Bytes → Prop}

theorem Agrees.weaken {handed' : UInt8 → Kind → Bytes → Prop} (agrees : codec.Agrees other handed)
    (weaker : ∀ format kind plain, handed' format kind plain → handed format kind plain) :
    codec.Agrees other handed' where
  limit := agrees.limit
  compressor := agrees.compressor
  missing := agrees.missing
  read reads := by
    obtain ⟨serializer', reads', same⟩ := agrees.read reads
    exact ⟨serializer', reads', fun kind plain isHanded => same kind plain (weaker _ _ _ isHanded)⟩

theorem Agrees.readBody (agrees : codec.Agrees other handed) {kind : Kind}
    {format compression : UInt8} {packed : Bytes}
    (hands : ∀ {compressor plain}, kind.isHeartbeat = false → packed ≠ [] →
      codec.catalogue.compressor compression = .ok compressor →
      compressor.decompress packed = .ok plain → handed format kind plain) :
    other.readBody kind format compression packed
      = codec.readBody kind format compression packed := by
  cases heart : kind.isHeartbeat with
  | true =>
      cases kind with
      | request => exact nomatch heart
      | response => exact nomatch heart
      | ping => rfl
      | pong => rfl
  | false =>
      rw [readBody_eq other heart, readBody_eq codec heart, agrees.compressor]
      by_cases empty : packed = []
      · rw [if_pos empty, if_pos empty]
      rw [if_neg empty, if_neg empty]
      cases found : codec.catalogue.compressor compression with
      | error fault => rfl
      | ok compressor =>
          cases reads : codec.catalogue.serializer format with
          | error fault => rw [agrees.missing reads]
          | ok serializer =>
              obtain ⟨serializer', reads', same⟩ := agrees.read reads
              rw [reads']
              dsimp only
              cases unpacked : compressor.decompress packed with
              | error fault => rfl
              | ok plain => exact same kind plain (hands heart empty found unpacked)

/-- What serializers do with bodies that are not handed to them changes no decoding. -/
theorem decode_congr {buffer : Bytes} (agrees : codec.Agrees other (codec.Hands buffer)) :
    other.decode buffer = codec.decode buffer := by
  cases codec.decodeCase buffer with
  | refuses header answer =>
      rw [answer]
      exact decode_refuses (agrees.limit ▸ header)
  | waits missing answer =>
      rw [answer]
      exact decode_eq_none_iff.mpr ⟨rfl, agrees.limit ▸ missing⟩
  | @takes length known whole answer =>
      rw [answer, decode_whole (agrees.limit ▸ known) whole]
      obtain ⟨field, rest, four, -, -, least, -⟩ := frameLength_eq_some_iff.mp known
      have long : 7 ≤ ((buffer.take length).drop 9).length := by
        rw [headerLength] at least
        rw [List.length_drop, List.length_take]
        omega
      obtain ⟨code, format, compression, id, packed, four, content⟩ := fields_of_length long
      rw [content, readFrame_fields other four, readFrame_fields codec four]
      cases isKind : Kind.ofCode? code with
      | none => rfl
      | some kind =>
          dsimp only
          have hands {compressor : Compressor} {plain : Bytes} (call : kind.isHeartbeat = false)
              (body : packed ≠ []) (found : codec.catalogue.compressor compression = .ok compressor)
              (unpacked : compressor.decompress packed = .ok plain) :
              codec.Hands buffer format kind plain :=
            ⟨known, whole, content, four, isKind, call, body, found, unpacked⟩
          rw [agrees.readBody hands]

end Agrees

/-- Over any libraries, of which the one for blocks gives no more than is announced, what is unpacked
has at most `sizeLimit` bytes.  A block is refused if it tells no size or one above the limit, whatever
follows; otherwise it is what the library makes of it, with no more bytes than announced.  A stream is
unpacked exactly if what its reader gives is within the limit, in whatever pieces.  So no serializer is
handed more, whatever buffer is decoded, and what serializers do with more changes no decoding. -/
theorem handed_bounded {libraries : Libraries} (within : libraries.lz4.Within) {codec : Codec}
    (unpacks : codec.catalogue.Unpacks libraries) :
    (∀ method, (libraries.compressor method).Bounded)
      ∧ (∀ packed, packed.length < 4 ∨ sizeLimit < Bytes.ofLittleEndian (packed.take 4) →
          (libraries.compressor .lz4).decompress packed = .error .decompression)
      ∧ (∀ packed text, (libraries.compressor .lz4).decompress packed = .ok text →
          libraries.lz4.unpack? packed = some text
            ∧ text.length ≤ Bytes.ofLittleEndian (packed.take 4))
      ∧ (∀ packed text, (libraries.compressor .zstd).decompress packed = .ok text ↔
          ∃ reader, libraries.zstd.open? packed = some reader
            ∧ Streams.Gives libraries.zstd reader text ∧ text.length ≤ sizeLimit)
      ∧ ∀ buffer,
          (∀ format kind plain, codec.Hands buffer format kind plain → plain.length ≤ sizeLimit)
            ∧ (∀ other, codec.Agrees other (codec.Hands buffer) →
              other.decode buffer = codec.decode buffer)
            ∧ ∀ other, codec.Agrees other (fun _ _ plain => plain.length ≤ sizeLimit) →
              other.decode buffer = codec.decode buffer := by
  have short {buffer plain : Bytes} {format : UInt8} {kind : Kind}
      (hands : codec.Hands buffer format kind plain) : plain.length ≤ sizeLimit := by
    obtain ⟨-, -, -, -, -, -, -, found, unpacked⟩ := hands
    rcases bounded_of_unpacks unpacks within found _ with failed | ⟨text, given, short⟩
    · exact nomatch failed.symm.trans unpacked
    · obtain rfl := Except.ok.inj (given.symm.trans unpacked)
      exact short
  refine ⟨Libraries.bounded_compressor within,
    fun _ => libraries.lz4.decompress_refused, fun packed text unpacked => ?_,
    fun _ _ => Streams.decompress_eq_ok_iff,
    fun buffer => ⟨fun _ _ _ => short, fun _ => decode_congr, fun other agrees => ?_⟩⟩
  · obtain ⟨-, given⟩ := Blocks.decompress_eq_ok_iff.mp unpacked
    exact ⟨given, within given⟩
  · exact decode_congr (agrees.weaken fun _ _ _ => short)

/-- A library whose streams never end: whatever is opened, every piece is full of zeros. -/
def endless : Libraries :=
  ⟨Lz4.blocks, ⟨some, Unit, fun _ => some (), fun _ length => some (List.replicate length 0, ())⟩⟩

/-- With streams that never end, a body that is not packed is handed on as it is, a body that announces
four gigabytes is refused, and of a stream nothing comes out. -/
theorem handed_bounded_endless :
    let codec := Codec.standard (Catalogue.empty.addCodecsOf endless)
    let request : Message := ⟨1, 0, 3, .request ⟨"", "", "", [], [], "", ""⟩⟩
    let frame := header 17 request ++ [0x07]
    endless.lz4.Within ∧ codec.catalogue.Unpacks endless
      ∧ codec.Hands frame 1 .request [0x07] ∧ ([0x07] : Bytes).length ≤ sizeLimit
      ∧ (endless.compressor .lz4).decompress [0xFF, 0xFF, 0xFF, 0xFF, 0x10, 0x07]
        = .error .decompression
      ∧ (endless.compressor .zstd).decompress [] = .error .decompression := by
  intro codec request frame
  have unpacks : codec.catalogue.Unpacks endless := (holds_addCodecsOf endless).compressor
  have content : (frame.take 17).drop 9
      = Kind.request.code :: 1 :: 0 :: ([0, 0, 0, 3] ++ [0x07]) := by decide
  have hands : codec.Hands frame 1 .request [0x07] :=
    .intro rfl (by decide) content rfl rfl rfl (List.cons_ne_nil _ _) (unpacks .none) rfl
  obtain ⟨bounded, refused, -, streams, decoding⟩ := handed_bounded Lz4.within_blocks unpacks
  refine ⟨Lz4.within_blocks, unpacks, hands, (decoding frame).1 _ _ _ hands,
    refused _ (.inr (by decide)), (bounded .zstd []).resolve_right ?_⟩
  -- there is no end of the pieces, so the reader gives no text at all
  rintro ⟨text, unpacked, -⟩
  obtain ⟨reader, -, gives, -⟩ := (streams [] text).mp unpacked
  clear unpacked
  induction gives with
  | nothing read => exact nomatch read
  | piece _ _ ih => exact ih

end Codec

end Frame

end RemoteCall
