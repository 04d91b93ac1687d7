import RemoteCall.Proofs.Frame.Encoding
import RemoteCall.Proofs.Frame.Grammar
import RemoteCall.Proofs.Lz4.Block
import RemoteCall.Proofs.Zstd.Frame

/-! # Frames come back

    What encoding adds to a buffer is a frame of the message in the sense of
    the grammar (`isFrame_frameOf`): the serializer reads back what it wrote,
    the compressor is lossless, and the length that the header tells fits into
    its four bytes because no limit is above `sizeLimit`.  Decoding accepts
    exactly the frames, so any codec that knows the same compressors and allows
    the length gives the message back (`decode_encode`). -/

namespace RemoteCall

open Extension Envelope Compression

/-- None of the built-in compressors loses anything. -/
theorem Extension.lossless_builtIn (method : Compression.Method) :
    (builtInCompressor method).Lossless := by
  cases method with
  | none => exact lossless_plain
  | lz4 => exact Lz4.lossless_blocks
  | zstd => exact Zstd.lossless_streams

namespace Frame

variable {compressors : Compression.Method → Compressor}

namespace Codec

variable {codec : Codec}

/-- What is packed for a message carries its body. -/
theorem carries_packed (known : codec.catalogue.Holds compressors builtInSerializer)
    (lossless : ∀ method, (compressors method).Lossless) {message : Message} {body : Bytes}
    (h : codec.packed message = .ok body) :
    Carries compressors builtInSerializer message.format message.compression body message.body := by
  cases heart : message.body.kind.isHeartbeat with
  | true => exact Or.inl heart
  | false =>
      rw [packed, if_neg (Bool.eq_false_iff.mp heart), serializer_of_holds known,
        compressor_of_holds known] at h
      cases named : Format.ofCode? message.format with
      | none => rw [named] at h; cases h
      | some format =>
          cases chosen : Compression.Method.ofCode? message.compression with
          | none => rw [named, chosen] at h; cases h
          | some method =>
              rw [named, chosen] at h
              simp only [bind, Except.bind] at h
              cases written : (builtInSerializer format).write message.body [] with
              | mk outcome plain =>
                  rw [written] at h
                  cases outcome with
                  | error fault => cases h
                  | ok done =>
                      dsimp only at h
                      by_cases long : sizeLimit < plain.length
                      · rw [if_pos long] at h
                        cases h
                      · rw [if_neg long] at h
                        -- the encoder's limit on the body is the one that unpacking has
                        have short : plain.length ≤ sizeLimit := Nat.le_of_not_lt long
                        have faithful := faithful_builtIn format
                        have something := faithful.write_ne_nil written
                        exact Or.inr ⟨(lossless method).packed_ne_nil short something h, method,
                          format, plain, chosen, named,
                          (lossless method).decompress_compress short h,
                          faithful.read_write written⟩

/-- What is encoded for a message is a frame of it, within the limit. -/
theorem isFrame_frameOf (known : codec.catalogue.Holds compressors builtInSerializer)
    (lossless : ∀ method, (compressors method).Lossless) (bounded : codec.limit ≤ sizeLimit)
    {message : Message} {frame : Bytes} (h : codec.frameOf message = .ok frame) :
    IsFrame compressors builtInSerializer codec.limit message frame := by
  rw [frameOf] at h
  cases made : codec.packed message with
  | error fault => rw [made] at h; cases h
  | ok body =>
      rw [made] at h
      replace h : codec.finish message body = .ok frame := h
      rw [finish] at h
      by_cases long : codec.limit < headerLength + body.length
      · rw [if_pos long] at h
        cases h
      · rw [if_neg long] at h
        obtain rfl := Except.ok.inj h
        have most := Nat.le_of_not_lt long
        -- no limit is above `sizeLimit`, so the length is not cut short in its four bytes
        have small : headerLength + body.length < 256 ^ 4 := by
          rw [sizeLimit] at bounded
          omega
        have idSmall : message.id.toNat < 256 ^ 4 := message.id.toNat_lt
        have frame := IsFrame.intro (Bytes.length_bigEndian 4 (headerLength + body.length))
          (Bytes.length_bigEndian 4 message.id.toNat)
          ((Bytes.ofBigEndian_bigEndian ..).trans (Nat.mod_eq_of_lt small)) most
          ((Bytes.ofBigEndian_bigEndian ..).trans (Nat.mod_eq_of_lt idSmall))
          (carries_packed known lossless made)
        simpa only [header, List.append_assoc, List.cons_append, List.nil_append] using frame

end Codec

/-! ## What a frame tells of itself -/

section IsFrame

variable {limit : Nat} {message : Message} {frame : Bytes}

/-- A frame is one under every limit that allows its length. -/
theorem IsFrame.of_length_le (h : IsFrame compressors builtInSerializer limit message frame)
    {other : Nat} (fits : frame.length ≤ other) :
    IsFrame compressors builtInSerializer other message frame := by
  obtain @⟨field, id, packed, four, idFour, length, most, number, carries⟩ := h
  refine .intro four idFour length ?_ number carries
  simp only [List.length_append, List.length_cons, four, idFour, mark, List.length_nil] at fits
  rw [headerLength]
  omega

/-- A frame has a header, keeps the limit, and tells its own length behind the mark and the
version. -/
theorem IsFrame.length (h : IsFrame compressors builtInSerializer limit message frame) :
    headerLength ≤ frame.length ∧ frame.length ≤ limit
      ∧ Bytes.ofBigEndian ((frame.drop 5).take 4) = frame.length := by
  obtain @⟨field, content, four, length, least, most⟩ := h.announces
  have size : (mark ++ version :: (field ++ content)).length = 9 + content.length := by
    simp only [List.length_append, List.length_cons, four, mark, List.length_nil]
    omega
  have told : ((mark ++ version :: (field ++ content)).drop 5).take 4 = field := by
    show (field ++ content).take 4 = field
    rw [← four, List.take_left]
  rw [size, told]
  exact ⟨least, most, length⟩

end IsFrame

/-! ## The round trip -/

theorem limit_ofLimit_le (catalogue : Catalogue) (limit : Nat) :
    (Codec.ofLimit catalogue limit).limit ≤ sizeLimit :=
  Nat.min_le_right ..

/-- When a codec, new or used, encodes a message into a buffer, it adds one frame, which tells its
own length and keeps the limit; and every codec that allows this length takes the message back off
the front of the frame and whatever follows. -/
theorem decode_encode (lossless : ∀ method, (compressors method).Lossless) {catalogue : Catalogue}
    (known : catalogue.Holds compressors builtInSerializer) (limit : Nat)
    (earlier : List (Message × Bytes))
    {message : Message} {buffer after : Bytes} {next : Codec}
    (encoded : ((Codec.ofLimit catalogue limit).encodeEach earlier).encode message buffer
      = (.ok (), after, next)) :
    ∃ frame, after = buffer ++ frame
      ∧ Bytes.ofBigEndian ((frame.drop 5).take 4) = frame.length
      ∧ headerLength ≤ frame.length ∧ frame.length ≤ (Codec.ofLimit catalogue limit).limit
      ∧ ∀ reader : Codec, reader.catalogue.Holds compressors builtInSerializer →
          frame.length ≤ reader.limit →
            ∀ tail, reader.decode (frame ++ tail) = (.ok (some message), tail) := by
  -- the history leaves another pool only, and a clean one does not show in the frame
  obtain ⟨pool, clean, used⟩ := Codec.encodeEach_eq (Codec.clean_ofLimit catalogue limit) earlier
  obtain ⟨_, -, answer⟩ := Codec.encode_of_clean
    ((Codec.ofLimit catalogue limit).withPool pool) clean message buffer
  rw [used, answer, Codec.frameOf_withPool] at encoded
  cases made : (Codec.ofLimit catalogue limit).frameOf message with
  | error fault =>
      rw [made] at encoded
      exact nomatch (Prod.mk.inj encoded).1
  | ok frame =>
      rw [made] at encoded
      have isFrame := Codec.isFrame_frameOf known lossless
        (limit_ofLimit_le catalogue limit) made
      obtain ⟨least, most, told⟩ := isFrame.length
      refine ⟨frame, ?_, told, least, most, fun reader knows fits tail => ?_⟩
      · exact (Prod.mk.inj (Prod.mk.inj encoded).2).1.symm
      · exact (decode_eq_message_iff knows orderly_builtIn).mpr
          ⟨frame, isFrame.of_length_le fits, rfl⟩

/-- A response in JSON, encoded behind other bytes by a codec that has failed before, comes back in
front of the next frame. -/
theorem decode_encode_response :
    let used := (Codec.ofLimit Catalogue.codecs 500).encodeEach
      [(⟨9, 0, 3, .request ⟨"1", "Echo", "say", ["text"], [7], "", ""⟩⟩, [])]
    let message : Message := ⟨2, 0, 7, .response (.ofData "1" (some [1, 2]))⟩
    ∃ frame, (used.encode message [0xff]).1 = .ok ()
      ∧ (used.encode message [0xff]).2.1 = [0xff] ++ frame
      ∧ (Codec.standard Catalogue.codecs).decode (frame ++ mark) = (.ok (some message), mark) := by
  intro used message
  have done : (used.encode message [0xff]).1 = .ok () := rfl
  have encoded : used.encode message [0xff]
      = (.ok (), (used.encode message [0xff]).2.1, (used.encode message [0xff]).2.2) :=
    Prod.ext done rfl
  obtain ⟨frame, added, -, -, most, back⟩ := decode_encode lossless_builtIn holds_codecs 500
    [(⟨9, 0, 3, .request ⟨"1", "Echo", "say", ["text"], [7], "", ""⟩⟩, [])] encoded
  exact ⟨frame, done, added, back _ holds_codecs (Nat.le_trans most (by decide)) mark⟩

end Frame

end RemoteCall
