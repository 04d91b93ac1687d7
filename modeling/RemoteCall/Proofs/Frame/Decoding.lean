import RemoteCall.Frame.Codec
import RemoteCall.Proofs.Envelope.Serializers
import RemoteCall.Proofs.Frame.Start

/-! # What one decoding does

    `Codec.decode` either waits, or refuses a header, or takes one whole frame
    and reads it (`decodeCase`).  A whole frame consists of its fields and the
    packed body (`readFrame_fields`), and what the body has to be depends on
    the kind alone (`Carries`): heartbeats carry anything, the other kinds
    something that unpacks and spells a body of this kind.

    Since a frame is taken only when all of it is there, bytes behind it change
    nothing (`decode_append`, `decode_append_error`). -/

namespace RemoteCall.Frame

open Extension Envelope Compression

namespace Codec

variable (codec : Codec)

/-- The ways in which one decoding can go. -/
inductive DecodeCase (buffer : Bytes) : Prop
  /-- The header is at fault, and nothing is taken. -/
  | refuses {fault : Fault} (header : frameLength codec.limit buffer = .error fault)
      (answer : codec.decode buffer = (.error fault, buffer))
  /-- The length or a part of the frame is missing, and nothing is taken. -/
  | waits (missing : frameLength codec.limit buffer = .ok none
        ∨ ∃ length, frameLength codec.limit buffer = .ok (some length) ∧ buffer.length < length)
      (answer : codec.decode buffer = (.ok none, buffer))
  /-- A whole frame is taken and read. -/
  | takes {length : Nat} (known : frameLength codec.limit buffer = .ok (some length))
      (whole : length ≤ buffer.length)
      (answer : codec.decode buffer
        = ((codec.readFrame ((buffer.take length).drop 9)).map some, buffer.drop length))

theorem decodeCase (buffer : Bytes) : codec.DecodeCase buffer := by
  by_cases empty : buffer = []
  · subst empty
    exact .waits (Or.inl rfl) rfl
  -- the decoder looks at the header first, and for the whole frame only behind a good one
  · have some : buffer.isEmpty = false := List.isEmpty_eq_false_iff.mpr empty
    have opened := decode.eq_1 codec buffer
    rw [some] at opened
    simp only [Bool.false_eq_true, if_false, Bytes.cut?_eq] at opened
    cases known : frameLength codec.limit buffer with
    | error fault =>
        rw [known] at opened
        exact .refuses known opened
    | ok answer =>
        rw [known] at opened
        cases answer with
        | none => exact .waits (Or.inl known) opened
        | some length =>
            dsimp only at opened
            by_cases whole : length ≤ buffer.length
            · rw [if_pos whole] at opened
              exact .takes known whole opened
            · rw [if_neg whole] at opened
              exact .waits (Or.inr ⟨length, known, by omega⟩) opened

section Cases

variable {codec} {buffer rest : Bytes}

/-- A frame that was read gave a message. -/
theorem map_some_eq_message {result : Except Fault Message} {message : Message}
    (h : result.map some = .ok (some message)) : result = .ok message := by
  cases result with
  | error fault => exact nomatch h
  | ok other => rw [Option.some.inj (Except.ok.inj h)]

theorem map_some_eq_error {result : Except Fault Message} {fault : Fault}
    (h : result.map some = .error fault) : result = .error fault := by
  cases result with
  | error other => rw [Except.error.inj h]
  | ok message => exact nomatch h

/-- A message comes from a whole frame. -/
theorem decode_eq_message {message : Message}
    (h : codec.decode buffer = (.ok (some message), rest)) :
    ∃ length, frameLength codec.limit buffer = .ok (some length) ∧ length ≤ buffer.length
      ∧ codec.readFrame ((buffer.take length).drop 9) = .ok message
      ∧ rest = buffer.drop length := by
  cases codec.decodeCase buffer with
  | refuses _ answer => rw [answer] at h; exact nomatch (Prod.mk.inj h).1
  | waits _ answer => rw [answer] at h; exact nomatch (Prod.mk.inj h).1
  | takes known whole answer =>
      rw [answer] at h
      obtain ⟨read, left⟩ := Prod.mk.inj h
      exact ⟨_, known, whole, map_some_eq_message read, left.symm⟩

/-- Nothing is decoded as long as the length or a part of the frame is missing. -/
theorem decode_eq_none_iff :
    codec.decode buffer = (.ok none, rest) ↔
      rest = buffer ∧ (frameLength codec.limit buffer = .ok none
        ∨ ∃ length, frameLength codec.limit buffer = .ok (some length)
            ∧ buffer.length < length) := by
  cases codec.decodeCase buffer with
  | refuses header answer =>
      rw [answer, header]
      constructor
      · intro h
        exact nomatch (Prod.mk.inj h).1
      · rintro ⟨-, h | ⟨length, h, -⟩⟩ <;> exact nomatch h
  | waits missing answer =>
      rw [answer]
      constructor
      · intro h
        exact ⟨(Prod.mk.inj h).2.symm, missing⟩
      · rintro ⟨rfl, -⟩
        rfl
  | takes known whole answer =>
      rw [answer, known]
      constructor
      · intro h
        have read := (Prod.mk.inj h).1
        cases found : codec.readFrame ((buffer.take _).drop 9) with
        | error fault => rw [found] at read; exact nomatch read
        | ok message => rw [found] at read; exact nomatch Except.ok.inj read
      · rintro ⟨-, h | ⟨other, h, short⟩⟩
        · exact nomatch Except.ok.inj h
        · obtain rfl := Option.some.inj (Except.ok.inj h)
          omega

/-- A fault is one of the header, or one of a frame that is taken. -/
theorem decode_eq_error {fault : Fault} (h : codec.decode buffer = (.error fault, rest)) :
    (frameLength codec.limit buffer = .error fault ∧ rest = buffer)
      ∨ ∃ length, frameLength codec.limit buffer = .ok (some length) ∧ length ≤ buffer.length
        ∧ codec.readFrame ((buffer.take length).drop 9) = .error fault
        ∧ rest = buffer.drop length := by
  cases codec.decodeCase buffer with
  | refuses header answer =>
      rw [answer] at h
      obtain ⟨same, left⟩ := Prod.mk.inj h
      obtain rfl := Except.error.inj same
      exact Or.inl ⟨header, left.symm⟩
  | waits _ answer => rw [answer] at h; exact nomatch (Prod.mk.inj h).1
  | takes known whole answer =>
      rw [answer] at h
      obtain ⟨read, left⟩ := Prod.mk.inj h
      exact Or.inr ⟨_, known, whole, map_some_eq_error read, left.symm⟩

/-- A whole frame is taken. -/
theorem decode_whole {length : Nat} (known : frameLength codec.limit buffer = .ok (some length))
    (whole : length ≤ buffer.length) :
    codec.decode buffer
      = ((codec.readFrame ((buffer.take length).drop 9)).map some, buffer.drop length) := by
  cases codec.decodeCase buffer with
  | refuses header _ => rw [header] at known; exact nomatch known
  | waits missing _ =>
      rcases missing with missing | ⟨other, found, short⟩
      · rw [missing] at known
        exact nomatch Except.ok.inj known
      · rw [found] at known
        obtain rfl := Option.some.inj (Except.ok.inj known)
        omega
  | takes found _ answer =>
      rw [found] at known
      obtain rfl := Option.some.inj (Except.ok.inj known)
      exact answer

/-- A header at fault is refused, and nothing is taken. -/
theorem decode_refuses {fault : Fault} (header : frameLength codec.limit buffer = .error fault) :
    codec.decode buffer = (.error fault, buffer) := by
  cases codec.decodeCase buffer with
  | refuses found answer =>
      rw [header] at found
      obtain rfl := Except.error.inj found
      exact answer
  | waits missing _ =>
      rcases missing with missing | ⟨other, found, -⟩
      · rw [missing] at header; exact nomatch header
      · rw [found] at header; exact nomatch header
  | takes known _ _ => rw [known] at header; exact nomatch header

/-! ## More bytes -/

/-- The frame that was taken is taken in front of more bytes too, which are left. -/
theorem decode_whole_append {length : Nat}
    (known : frameLength codec.limit buffer = .ok (some length)) (whole : length ≤ buffer.length)
    (more : Bytes) :
    codec.decode (buffer ++ more)
      = ((codec.readFrame ((buffer.take length).drop 9)).map some, buffer.drop length ++ more) := by
  have long : length ≤ (buffer ++ more).length := by
    rw [List.length_append]
    omega
  rw [decode_whole (frameLength_append known more) long, List.take_append_of_le_length whole,
    List.drop_append_of_le_length whole]

theorem decode_append {message : Message} (h : codec.decode buffer = (.ok (some message), rest))
    (more : Bytes) :
    codec.decode (buffer ++ more) = (.ok (some message), rest ++ more) := by
  obtain ⟨length, known, whole, read, rfl⟩ := decode_eq_message h
  rw [decode_whole_append known whole more, read]
  rfl

/-- A fault stays, and so does what is left behind it; but a bad mark is told as far as it has
arrived, and then nothing was taken. -/
theorem decode_append_error {fault : Fault} (h : codec.decode buffer = (.error fault, rest))
    (more : Bytes) :
    ∃ later, codec.decode (buffer ++ more) = (.error later, rest ++ more)
      ∧ (later = fault ∨ (fault = .badMagic (arrivedMark rest)
          ∧ later = .badMagic (arrivedMark (rest ++ more)))) := by
  rcases decode_eq_error h with ⟨header, rfl⟩ | ⟨length, known, whole, read, rfl⟩
  -- the mark is the only part of a header that is told as it stands in the buffer
  · rcases frameLength_append_error header with ⟨rfl, stays⟩ | ⟨-, stays⟩
    · exact ⟨_, decode_refuses (stays more), Or.inr ⟨rfl, rfl⟩⟩
    · exact ⟨fault, decode_refuses (stays more), Or.inl rfl⟩
  · refine ⟨fault, ?_, Or.inl rfl⟩
    rw [decode_whole_append known whole more, read]
    rfl

end Cases

/-! ## Whole frames -/

/-- A frame of at least a header has a kind, a format, a compression, four bytes of a number, and a
packed body. -/
theorem fields_of_length {content : Bytes} (h : 7 ≤ content.length) :
    ∃ kind format compression id packed, List.length id = 4
      ∧ content = kind :: format :: compression :: (id ++ packed) := by
  match content, h with
  | kind :: format :: compression :: a :: b :: c :: d :: packed, _ =>
      exact ⟨kind, format, compression, [a, b, c, d], packed, rfl, rfl⟩

theorem readFrame_fields {id : Bytes} (four : id.length = 4)
    (kind format compression : UInt8) (packed : Bytes) :
    codec.readFrame (kind :: format :: compression :: (id ++ packed)) =
      match Kind.ofCode? kind with
      | none => .error (.unknownKind kind)
      | some kind =>
        (codec.readBody kind format compression packed).map fun body =>
          ⟨format, compression, UInt32.ofNat (Bytes.ofBigEndian id), body⟩ := by
  match id, four with
  | [a, b, c, d], _ =>
      show codec.readFrame (kind :: format :: compression :: a :: b :: c :: d :: packed) = _
      rw [readFrame]
      cases Kind.ofCode? kind with
      | none => rfl
      | some kind =>
          dsimp only
          cases codec.readBody kind format compression packed with
          | error fault => rfl
          | ok body => rfl

end Codec

/-- What the packed body of a frame has to be: anything behind the header of a heartbeat; for a
request or a response something that a known compression unpacks to bytes that a known format reads
as a body of this kind. -/
def Carries (compressors : Compression.Method → Compressor) (serializers : Format → Serializer)
    (format compression : UInt8) (packed : Bytes) (body : Body) : Prop :=
  body.kind.isHeartbeat = true ∨
    packed ≠ [] ∧ ∃ method layout plain, Compression.Method.ofCode? compression = some method
      ∧ Format.ofCode? format = some layout ∧ (compressors method).decompress packed = .ok plain
      ∧ (serializers layout).read body.kind plain = .ok body

namespace Codec

variable {codec : Codec} {compressors : Compression.Method → Compressor}
  {serializers : Format → Serializer}

/-- Of a call, the compressor is looked up and then the serializer, and what one unpacks the other
reads. -/
theorem readBody_eq (codec : Codec) {kind : Kind} (call : kind.isHeartbeat = false)
    (format compression : UInt8) (packed : Bytes) :
    codec.readBody kind format compression packed =
      if packed = [] then .error .missingBody
      else
        match codec.catalogue.compressor compression with
        | .error fault => .error fault
        | .ok compressor =>
          match codec.catalogue.serializer format with
          | .error fault => .error fault
          | .ok serializer =>
            match compressor.decompress packed with
            | .error fault => .error fault
            | .ok plain => serializer.read kind plain := by
  have opened : codec.readBody kind format compression packed = (do
      if packed.isEmpty then throw .missingBody
      let compressor ← codec.catalogue.compressor compression
      let serializer ← codec.catalogue.serializer format
      let plain ← compressor.decompress packed
      serializer.read kind plain : Except Fault Body) := by
    cases kind with
    | request => rfl
    | response => rfl
    | ping => exact nomatch call
    | pong => exact nomatch call
  rw [opened]
  cases packed with
  | nil => rfl
  | cons b more =>
      rw [if_neg (List.cons_ne_nil b more)]
      cases codec.catalogue.compressor compression with
      | error fault => rfl
      | ok compressor =>
          cases codec.catalogue.serializer format with
          | error fault => rfl
          | ok serializer =>
              dsimp only
              show (compressor.decompress (b :: more)).bind (serializer.read kind) = _
              cases compressor.decompress (b :: more) with
              | error fault => rfl
              | ok plain => rfl

/-- The body of a request or a response is unpacked and read. -/
theorem readBody_call (known : codec.catalogue.Holds compressors serializers) {kind : Kind}
    (call : kind.isHeartbeat = false) (format compression : UInt8) (packed : Bytes) :
    codec.readBody kind format compression packed =
      if packed = [] then .error .missingBody
      else
        match Compression.Method.ofCode? compression with
        | none => .error (.unknownCompression compression)
        | some method =>
          match Format.ofCode? format with
          | none => .error (.unknownFormat format)
          | some layout =>
            match (compressors method).decompress packed with
            | .error fault => .error fault
            | .ok plain => (serializers layout).read kind plain := by
  rw [readBody_eq codec call, compressor_of_holds known, serializer_of_holds known]
  cases Compression.Method.ofCode? compression with
  | none => rfl
  | some method =>
      cases Format.ofCode? format with
      | none => rfl
      | some layout => rfl

/-- A body is read exactly from what carries it. -/
theorem readBody_eq_ok_iff (known : codec.catalogue.Holds compressors serializers)
    (reading : ∀ format, (serializers format).Orderly) {kind : Kind}
    {format compression : UInt8} {packed : Bytes} {body : Body} :
    codec.readBody kind format compression packed = .ok body
      ↔ body.kind = kind ∧ Carries compressors serializers format compression packed body := by
  cases heart : kind.isHeartbeat with
  | true =>
      constructor
      · intro h
        cases kind with
        | request => exact nomatch heart
        | response => exact nomatch heart
        | ping => obtain rfl := Except.ok.inj h; exact ⟨rfl, Or.inl rfl⟩
        | pong => obtain rfl := Except.ok.inj h; exact ⟨rfl, Or.inl rfl⟩
      · rintro ⟨rfl, -⟩
        cases body with
        | request r => exact nomatch heart
        | response r => exact nomatch heart
        | ping => rfl
        | pong => rfl
  | false =>
      rw [readBody_call known heart]
      constructor
      · intro h
        by_cases empty : packed = []
        · rw [if_pos empty] at h
          exact nomatch h
        rw [if_neg empty] at h
        cases method : Compression.Method.ofCode? compression with
        | none => rw [method] at h; exact nomatch h
        | some method' =>
            cases layout : Format.ofCode? format with
            | none => rw [method, layout] at h; exact nomatch h
            | some layout' =>
                cases unpacked : (compressors method').decompress packed with
                | error fault =>
                    rw [method, layout] at h
                    dsimp only at h
                    rw [unpacked] at h
                    exact nomatch h
                | ok plain =>
                    rw [method, layout] at h
                    dsimp only at h
                    rw [unpacked] at h
                    -- no format reads a body of another kind than it was asked for
                    have same := (reading layout').kind h
                    refine ⟨same, Or.inr ⟨empty, method', layout', plain, method, layout,
                      unpacked, ?_⟩⟩
                    rw [same]
                    exact h
      · rintro ⟨rfl, heartbeat | ⟨some, method, layout, plain, method?, layout?, unpacked, read⟩⟩
        · rw [heart] at heartbeat
          exact nomatch heartbeat
        · rw [if_neg some, method?, layout?]
          dsimp only
          rw [unpacked]
          exact read

end Codec

end RemoteCall.Frame
