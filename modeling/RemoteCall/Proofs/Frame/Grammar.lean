import RemoteCall.Proofs.Frame.Decoding

/-! # The grammar of frames

    `IsFrame` says which bytes are a frame of a message, and decoding accepts
    exactly these (`decode_eq_message_iff`).  `Unfinished` says when nothing
    that has arrived is wrong and something is missing, and decoding waits
    exactly then (`decode_eq_wait_iff`).

    Everything else is a fault, and a fault tells how the stream stands
    (`decode_error_boundary`): one of the header leaves the buffer as it was,
    any other leaves it behind the announced frame.  The faults that are no
    protocol violations are all of the second sort, so that the next frame can
    be read.  `decode_grammar` puts this together. -/

namespace RemoteCall.Frame

open Extension Envelope Compression

/-! ## Frames -/

/-- The bytes that are a frame of a message: the mark, the version, the length of the frame, the
numbers of the message, and a packed body that carries its content. -/
inductive IsFrame (compressors : Compression.Method → Compressor)
    (serializers : Format → Serializer) (limit : Nat) (message : Message) : Bytes → Prop
  | intro {field id packed : Bytes} (four : field.length = 4) (idFour : id.length = 4)
      (length : Bytes.ofBigEndian field = headerLength + packed.length)
      (most : headerLength + packed.length ≤ limit)
      (number : Bytes.ofBigEndian id = message.id.toNat)
      (carries : Carries compressors serializers message.format message.compression packed
        message.body) :
      IsFrame compressors serializers limit message
        (mark ++ version :: (field ++ message.body.kind.code :: message.format
          :: message.compression :: (id ++ packed)))

/-- The bytes that a header announces: they start with the mark, the version and their own length,
which is at least that of a header and at most the limit. -/
inductive Announces (limit : Nat) : Bytes → Prop
  | intro {field content : Bytes} (four : field.length = 4)
      (length : Bytes.ofBigEndian field = 9 + content.length)
      (least : headerLength ≤ 9 + content.length) (most : 9 + content.length ≤ limit) :
      Announces limit (mark ++ version :: (field ++ content))

/-- No byte received so far violates the header, and the length or a part of the frame is
missing. -/
structure Unfinished (limit : Nat) (buffer : Bytes) : Prop where
  mark : buffer.take 4 <+: mark
  version : ∀ found, buffer[4]? = some found → found = version
  length : 9 ≤ buffer.length →
    headerLength ≤ Bytes.ofBigEndian ((buffer.drop 5).take 4)
      ∧ Bytes.ofBigEndian ((buffer.drop 5).take 4) ≤ limit
      ∧ buffer.length < Bytes.ofBigEndian ((buffer.drop 5).take 4)

/-! ## Faults -/

/-- Whether a fault is found in a header, before anything is taken. -/
def isHeaderFault : Fault → Bool
  | .badMagic _ | .badVersion _ | .frameTooShort _ | .frameTooLong _ => true
  | _ => false

/-- The faults of a frame that is taken. -/
inductive ContentFault : Fault → Prop
  | unknownKind (code : UInt8) : ContentFault (.unknownKind code)
  | missingBody : ContentFault .missingBody
  | unknownCompression (code : UInt8) : ContentFault (.unknownCompression code)
  | unknownFormat (code : UInt8) : ContentFault (.unknownFormat code)
  | decompression : ContentFault .decompression
  | unreadable (reason : String) : ContentFault (.unreadable reason)

theorem ContentFault.not_header {fault : Fault} (h : ContentFault fault) :
    isHeaderFault fault = false := by
  cases h <;> rfl

/-- The faults of a header are protocol violations. -/
theorem isViolation_of_isHeaderFault {fault : Fault} (h : isHeaderFault fault = true) :
    fault.isViolation = true := by
  cases fault <;> first | rfl | exact nomatch h

theorem isHeaderFault_of_frameLength {limit : Nat} {buffer : Bytes} {fault : Fault}
    (h : frameLength limit buffer = .error fault) : isHeaderFault fault = true := by
  rcases frameLength_append_error h with ⟨rfl, -⟩ | ⟨kinds, -⟩
  · rfl
  · rcases kinds with ⟨found, rfl⟩ | ⟨length, rfl⟩ | ⟨length, rfl⟩ <;> rfl

variable {compressors : Compression.Method → Compressor} {serializers : Format → Serializer}

section Reading

variable {codec : Codec}

theorem contentFault_of_readBody (known : codec.catalogue.Holds compressors serializers)
    (unpacking : ∀ method, (compressors method).Orderly)
    (reading : ∀ format, (serializers format).Orderly) {kind : Kind}
    {format compression : UInt8} {packed : Bytes} {fault : Fault}
    (h : codec.readBody kind format compression packed = .error fault) : ContentFault fault := by
  cases heart : kind.isHeartbeat with
  | true =>
      cases kind with
      | request => exact nomatch heart
      | response => exact nomatch heart
      | ping => exact nomatch h
      | pong => exact nomatch h
  | false =>
      rw [Codec.readBody_call known heart] at h
      split at h
      · obtain rfl := Except.error.inj h
        exact .missingBody
      · split at h
        · obtain rfl := Except.error.inj h
          exact .unknownCompression compression
        · next method _ =>
          split at h
          · obtain rfl := Except.error.inj h
            exact .unknownFormat format
          · next layout _ =>
            split at h
            · next failed =>
                obtain rfl := Except.error.inj h
                obtain rfl := unpacking method failed
                exact .decompression
            · obtain ⟨reason, rfl⟩ := (reading layout).fault h
              exact .unreadable reason

theorem contentFault_of_readFrame (known : codec.catalogue.Holds compressors serializers)
    (unpacking : ∀ method, (compressors method).Orderly)
    (reading : ∀ format, (serializers format).Orderly)
    {content : Bytes} (long : 7 ≤ content.length) {fault : Fault}
    (h : codec.readFrame content = .error fault) : ContentFault fault := by
  obtain ⟨kind, format, compression, id, packed, four, rfl⟩ := Codec.fields_of_length long
  rw [Codec.readFrame_fields codec four] at h
  cases decoded : Kind.ofCode? kind with
  | none =>
      rw [decoded] at h
      obtain rfl := Except.error.inj h
      exact .unknownKind kind
  | some kind' =>
      rw [decoded] at h
      dsimp only at h
      cases read : codec.readBody kind' format compression packed with
      | error other =>
          rw [read] at h
          obtain rfl : other = fault := Except.error.inj h
          exact contentFault_of_readBody known unpacking reading read
      | ok body => rw [read] at h; exact nomatch h

/-- The content of a frame is read exactly where it is one of the message. -/
theorem readFrame_eq_ok_iff (known : codec.catalogue.Holds compressors serializers)
    (reading : ∀ format, (serializers format).Orderly) {content : Bytes}
    (long : 7 ≤ content.length) {message : Message} :
    codec.readFrame content = .ok message ↔
      ∃ id packed, List.length id = 4 ∧ Bytes.ofBigEndian id = message.id.toNat
        ∧ Carries compressors serializers message.format message.compression packed message.body
        ∧ content = message.body.kind.code :: message.format :: message.compression
            :: (id ++ packed) := by
  constructor
  · intro h
    obtain ⟨kind, format, compression, id, packed, four, rfl⟩ := Codec.fields_of_length long
    rw [Codec.readFrame_fields codec four] at h
    cases decoded : Kind.ofCode? kind with
    | none => rw [decoded] at h; exact nomatch h
    | some kind' =>
        rw [decoded] at h
        dsimp only at h
        cases read : codec.readBody kind' format compression packed with
        | error other => rw [read] at h; exact nomatch h
        | ok body =>
            rw [read] at h
            obtain rfl := Except.ok.inj h
            obtain ⟨same, carries⟩ := (Codec.readBody_eq_ok_iff known reading).mp read
            obtain rfl := Kind.ofCode?_eq_some_iff.mp decoded
            -- four bytes spell no more than an id can be
            have small : Bytes.ofBigEndian id < 2 ^ 32 := by
              have := Bytes.ofBigEndian_lt id
              rw [four] at this
              omega
            refine ⟨id, packed, four, (UInt32.toNat_ofNat_of_lt' small).symm, carries, ?_⟩
            rw [same]
  · rintro ⟨id, packed, four, number, carries, rfl⟩
    have read := (Codec.readBody_eq_ok_iff known reading).mpr ⟨rfl, carries⟩
    rw [Codec.readFrame_fields codec four, Kind.ofCode?_code]
    dsimp only
    rw [read, number, UInt32.ofNat_toNat]
    rfl

end Reading

/-! ## Decoding -/

section Decoding

variable {codec : Codec} {buffer rest : Bytes}

/-- A frame is taken as soon as all bytes are there that its header announces. -/
theorem announces_take {limit length : Nat}
    (known : frameLength limit buffer = .ok (some length)) (whole : length ≤ buffer.length) :
    Announces limit (buffer.take length) := by
  obtain ⟨field, more, four, rfl, rfl, least, most⟩ := frameLength_eq_some_iff.mp known
  have front : mark ++ version :: (field ++ more) = (mark ++ version :: field) ++ more := by
    simp only [List.append_assoc, List.cons_append]
  have nine : (mark ++ version :: field).length = 9 := by
    rw [List.length_append, List.length_cons, four]
    rfl
  rw [headerLength] at least
  rw [front, List.length_append, nine] at whole
  have size : 9 + (more.take (Bytes.ofBigEndian field - 9)).length = Bytes.ofBigEndian field := by
    rw [List.length_take]
    omega
  rw [front, List.take_append, nine, List.take_of_length_le (by omega), List.append_assoc,
    List.cons_append]
  refine .intro four size.symm ?_ ?_
  · rw [size, headerLength]
    exact least
  · rw [size]
    exact most

/-- The length that an announced frame tells is its own, whatever follows. -/
theorem Announces.frameLength_append {limit : Nat} {frame : Bytes} (h : Announces limit frame)
    (rest : Bytes) : frameLength limit (frame ++ rest) = .ok (some frame.length) := by
  obtain @⟨field, content, four, length, least, most⟩ := h
  have size : (mark ++ version :: (field ++ content)).length = 9 + content.length := by
    simp only [List.length_append, List.length_cons, four, mark, List.length_nil]
    omega
  refine frameLength_eq_some_iff.mpr ⟨field, content ++ rest, four, ?_, ?_, ?_, ?_⟩
  · simp only [List.append_assoc, List.cons_append]
  · rw [size, length]
  · rw [size]
    exact least
  · rw [size]
    exact most

/-- What stands behind the length. -/
theorem drop_front {field : Bytes} (four : field.length = 4) (content : Bytes) :
    (mark ++ version :: (field ++ content)).drop 9 = content := by
  show (field ++ content).drop 4 = content
  rw [← four, List.drop_left]

/-- An announced frame has the fields behind the length. -/
theorem Announces.length_drop {limit : Nat} {frame : Bytes} (h : Announces limit frame) :
    7 ≤ (frame.drop 9).length := by
  obtain @⟨field, content, four, length, least, most⟩ := h
  rw [headerLength] at least
  simp only [List.length_drop, List.length_append, List.length_cons, four, mark, List.length_nil]
  omega

/-- An announced frame is taken and read, whatever follows. -/
theorem decode_announced {frame : Bytes} (h : Announces codec.limit frame) (rest : Bytes) :
    codec.decode (frame ++ rest) = ((codec.readFrame (frame.drop 9)).map some, rest) := by
  have whole : frame.length ≤ (frame ++ rest).length := by
    rw [List.length_append]
    omega
  rw [Codec.decode_whole (h.frameLength_append rest) whole, List.take_left, List.drop_left]

theorem IsFrame.announces {limit : Nat} {message : Message} {frame : Bytes}
    (h : IsFrame compressors serializers limit message frame) :
    Announces limit frame := by
  obtain @⟨field, id, packed, four, idFour, length, most, number, carries⟩ := h
  have size : 9 + (message.body.kind.code :: message.format :: message.compression
      :: (id ++ packed)).length = headerLength + packed.length := by
    rw [List.length_cons, List.length_cons, List.length_cons, List.length_append, idFour,
      headerLength]
    omega
  refine .intro four ?_ ?_ ?_
  · rw [size]
    exact length
  · rw [size]
    omega
  · rw [size]
    exact most

/-- Exactly the frames of a message are decoded to it, and what stands behind them is left. -/
theorem decode_eq_message_iff (known : codec.catalogue.Holds compressors serializers)
    (reading : ∀ format, (serializers format).Orderly) {message : Message} :
    codec.decode buffer = (.ok (some message), rest) ↔
      ∃ frame, IsFrame compressors serializers codec.limit message frame
        ∧ buffer = frame ++ rest := by
  constructor
  · intro h
    obtain ⟨length, told, whole, read, rfl⟩ := Codec.decode_eq_message h
    have announces := announces_take told whole
    refine ⟨buffer.take length, ?_, (List.take_append_drop length buffer).symm⟩
    obtain ⟨id, packed, idFour, number, carries, content⟩ :=
      (readFrame_eq_ok_iff known reading announces.length_drop).mp read
    -- what was taken is an announced frame, and its content says which message
    generalize buffer.take length = frame at announces content
    obtain @⟨field, content', four, size, least, most⟩ := announces
    rw [drop_front four] at content
    subst content
    have long : 9 + (message.body.kind.code :: message.format :: message.compression
        :: (id ++ packed)).length = headerLength + packed.length := by
      rw [List.length_cons, List.length_cons, List.length_cons, List.length_append, idFour,
        headerLength]
      omega
    rw [long] at size most
    exact .intro four idFour size most number carries
  · rintro ⟨frame, isFrame, rfl⟩
    have announces := isFrame.announces
    rw [decode_announced announces]
    obtain @⟨field, id, packed, four, idFour, length, most, number, carries⟩ := isFrame
    have read := (readFrame_eq_ok_iff known reading announces.length_drop).mpr
      ⟨id, packed, idFour, number, carries, drop_front four _⟩
    rw [read]
    rfl

/-- The header is not known to be wrong, and something is missing. -/
theorem unfinished_iff {limit : Nat} :
    (frameLength limit buffer = .ok none
        ∨ ∃ length, frameLength limit buffer = .ok (some length) ∧ buffer.length < length)
      ↔ Unfinished limit buffer := by
  cases start buffer with
  | strange strange =>
      rw [frameLength_strange limit strange]
      constructor
      · rintro (h | ⟨length, h, -⟩) <;> cases h
      · intro h
        exact absurd h.mark strange
  | short short =>
      have long : buffer.length ≤ 4 := short.length_le
      rw [frameLength_short limit short]
      refine ⟨fun _ => ⟨?_, ?_, ?_⟩, fun _ => Or.inl rfl⟩
      · rw [List.take_of_length_le long]
        exact short
      · intro found h
        rw [List.getElem?_eq_none long] at h
        cases h
      · intro nine
        omega
  | @foreign found rest foreign =>
      rw [frameLength_foreign limit foreign]
      constructor
      · rintro (h | ⟨length, h, -⟩) <;> cases h
      · intro h
        exact absurd (h.version found rfl) foreign
  | @unfinished few missing =>
      rw [frameLength_unfinished limit missing]
      refine ⟨fun _ => ⟨List.prefix_refl mark, ?_, ?_⟩, fun _ => Or.inl rfl⟩
      · intro found h
        exact (Option.some.inj h).symm
      · intro nine
        simp only [List.length_append, List.length_cons, mark, List.length_nil] at nine
        omega
  | @announced field rest four =>
      have told : ((mark ++ version :: (field ++ rest)).drop 5).take 4 = field := by
        show (field ++ rest).take 4 = field
        rw [← four, List.take_left]
      have nine : 9 ≤ (mark ++ version :: (field ++ rest)).length := by
        simp only [List.length_append, List.length_cons, four, mark, List.length_nil]
        omega
      rw [frameLength_announced limit four]
      constructor
      · rintro (h | ⟨length, h, short⟩)
        · cases (judge_eq_ok_iff.mp h).2.2
        · obtain ⟨least, most, same⟩ := judge_eq_ok_iff.mp h
          obtain rfl := Option.some.inj same
          refine ⟨List.prefix_refl mark, fun found h => (Option.some.inj h).symm, fun _ => ?_⟩
          rw [told]
          exact ⟨least, most, short⟩
      · intro h
        obtain ⟨least, most, short⟩ := h.length nine
        rw [told] at least most short
        exact Or.inr ⟨_, judge_eq_ok_iff.mpr ⟨least, most, rfl⟩, short⟩

/-- Decoding waits exactly while nothing is wrong and something is missing. -/
theorem decode_eq_wait_iff :
    codec.decode buffer = (.ok none, rest) ↔ rest = buffer ∧ Unfinished codec.limit buffer := by
  rw [Codec.decode_eq_none_iff, unfinished_iff]

/-- A fault of the header takes nothing; any other fault takes the announced frame, and then more
bytes change neither the fault nor what is left. -/
theorem decode_error_boundary (known : codec.catalogue.Holds compressors serializers)
    (unpacking : ∀ method, (compressors method).Orderly)
    (reading : ∀ format, (serializers format).Orderly) {fault : Fault}
    (h : codec.decode buffer = (.error fault, rest)) :
    (isHeaderFault fault = true ∧ rest = buffer)
      ∨ (ContentFault fault ∧ ∃ frame, Announces codec.limit frame ∧ buffer = frame ++ rest
          ∧ ∀ more, codec.decode (buffer ++ more) = (.error fault, rest ++ more)) := by
  rcases Codec.decode_eq_error h with ⟨header, rfl⟩ | ⟨length, told, whole, read, rfl⟩
  · exact Or.inl ⟨isHeaderFault_of_frameLength header, rfl⟩
  · have announces := announces_take told whole
    refine Or.inr ⟨contentFault_of_readFrame known unpacking reading announces.length_drop read, _,
      announces, (List.take_append_drop length buffer).symm, fun more => ?_⟩
    rw [Codec.decode_whole_append told whole more, read]
    rfl

/-- With any compressors and serializers that tell their faults as what they are, decoding accepts
exactly the frames, waits exactly on unfinished ones, and its faults tell how the stream stands: those
of the header take nothing, all others take the announced frame, and so does every fault that is no
protocol violation, so that the bytes behind are decoded as what comes next. -/
theorem decode_grammar (known : codec.catalogue.Holds compressors serializers)
    (unpacking : ∀ method, (compressors method).Orderly)
    (reading : ∀ format, (serializers format).Orderly) (buffer rest : Bytes) :
    (∀ message, codec.decode buffer = (.ok (some message), rest) ↔
        ∃ frame, IsFrame compressors serializers codec.limit message frame
          ∧ buffer = frame ++ rest)
      ∧ (codec.decode buffer = (.ok none, rest) ↔ rest = buffer ∧ Unfinished codec.limit buffer)
      ∧ (∀ fault, codec.decode buffer = (.error fault, rest) →
          (isHeaderFault fault = true → rest = buffer)
            ∧ (isHeaderFault fault = false →
              ∃ frame, Announces codec.limit frame ∧ buffer = frame ++ rest))
      ∧ ∀ fault, codec.decode buffer = (.error fault, rest) → fault.isViolation = false →
          ∃ frame, Announces codec.limit frame ∧ buffer = frame ++ rest
            ∧ ∀ more, codec.decode (buffer ++ more) = (.error fault, rest ++ more) := by
  refine ⟨fun message => decode_eq_message_iff known reading, decode_eq_wait_iff, ?_, ?_⟩
  · intro fault h
    rcases decode_error_boundary known unpacking reading h with
      ⟨header, same⟩ | ⟨content, frame, announces, cut, -⟩
    · exact ⟨fun _ => same, fun other => absurd (header.symm.trans other) (by decide)⟩
    · exact ⟨fun header => absurd (header.symm.trans content.not_header) (by decide),
        fun _ => ⟨frame, announces, cut⟩⟩
  · intro fault h trusted
    rcases decode_error_boundary known unpacking reading h with
      ⟨header, -⟩ | ⟨-, frame, announces, cut, stays⟩
    · exact nomatch (isViolation_of_isHeaderFault header).symm.trans trusted
    · exact ⟨frame, announces, cut, stays⟩

/-- A request in a compression that nobody knows is no violation: it is taken, and what stands
behind it is decoded next. -/
theorem decode_grammar_unknownCompression :
    let frame := header 17 ⟨1, 7, 3, .request ⟨"", "", "", [], [], "", ""⟩⟩ ++ [0x00]
    let codec := Codec.standard Catalogue.codecs
    codec.catalogue.Holds builtInCompressor builtInSerializer
      ∧ (∀ method, (builtInCompressor method).Orderly)
      ∧ (∀ format, (builtInSerializer format).Orderly)
      ∧ codec.decode (frame ++ mark) = (.error (.unknownCompression 7), mark)
      ∧ ∃ taken, Announces codec.limit taken ∧ frame ++ mark = taken ++ mark
        ∧ ∀ more, codec.decode (frame ++ mark ++ more)
            = (.error (.unknownCompression 7), mark ++ more) := by
  intro frame codec
  have known : codec.catalogue.Holds builtInCompressor builtInSerializer := holds_codecs
  have unpacking := ownLibraries.orderly_compressor
  have failed : codec.decode (frame ++ mark) = (.error (.unknownCompression 7), mark) := rfl
  exact ⟨known, unpacking, orderly_builtIn, failed,
    (decode_grammar known unpacking orderly_builtIn (frame ++ mark) mark).2.2.2 _ failed rfl⟩

end Decoding

end RemoteCall.Frame
