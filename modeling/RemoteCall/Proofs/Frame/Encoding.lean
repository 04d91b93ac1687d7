import RemoteCall.Frame.Codec
import RemoteCall.Proofs.BufferPool

/-! # What one encoding does

    A body is prepared in a buffer from the pool, and a failure may leave
    anything there.  That no byte of it ever reaches a later frame rests on one
    invariant: every idle buffer is empty (`BufferPool.Clean`), because a buffer
    that comes back is emptied, whatever is in it (`clean_release`).

    On a clean pool the frame of a message is a function of the message, the
    catalogue and the limit (`Codec.frameOf`), encoding adds just this frame or
    nothing (`encode_of_clean`), and leaves a clean pool.  So a codec that has
    encoded before answers as a new one (`encode_independent`). -/

namespace RemoteCall

namespace Frame.Codec

/-! ## Frames of messages -/

/-- The packed body of a message, as it is when the buffer it is prepared in is empty. -/
def packed (codec : Codec) (message : Message) : Except Fault Bytes :=
  if message.body.kind.isHeartbeat then .ok []
  else do
    let serializer ← codec.catalogue.serializer message.format
    let compressor ← codec.catalogue.compressor message.compression
    match serializer.write message.body [] with
    | (.error fault, _) => .error fault
    | (.ok (), plain) =>
      if sizeLimit < plain.length then .error (.frameTooLong (headerLength + plain.length))
      else compressor.compress plain

/-- The frame of a message. It takes no notice of the pool. -/
def frameOf (codec : Codec) (message : Message) : Except Fault Bytes :=
  (codec.packed message).bind (codec.finish message)

variable {codec : Codec}

/-- Preparing in an empty buffer and finishing gives the frame, or the first fault on the way. -/
theorem prepare_finish (codec : Codec) (message : Message) {scratch : Buffer}
    (empty : scratch.bytes = []) :
    ((codec.prepare message scratch).1.bind fun _ =>
        codec.finish message (codec.prepare message scratch).2.bytes) = codec.frameOf message := by
  rw [frameOf, packed, prepare]
  by_cases heartbeat : message.body.kind.isHeartbeat = true
  · rw [if_pos heartbeat, if_pos heartbeat]
    show codec.finish message scratch.bytes = codec.finish message []
    rw [empty]
  · rw [if_neg heartbeat, if_neg heartbeat]
    cases codec.catalogue.serializer message.format with
    | error fault => rfl
    | ok serializer =>
        cases codec.catalogue.compressor message.compression with
        | error fault => rfl
        | ok compressor =>
            -- only here is anything written into the scratch, and it was empty before
            dsimp only
            rw [empty]
            show _ = (Except.bind (match serializer.write message.body [] with
              | (.error fault, _) => .error fault
              | (.ok (), plain) =>
                if sizeLimit < plain.length then
                  .error (.frameTooLong (headerLength + plain.length))
                else compressor.compress plain) (codec.finish message))
            cases serializer.write message.body [] with
            | mk written bytes =>
                cases written with
                | error fault => rfl
                | ok done =>
                    dsimp only
                    by_cases long : sizeLimit < bytes.length
                    · rw [if_pos long, if_pos long]
                      rfl
                    · rw [if_neg long, if_neg long]
                      cases compressor.compress bytes with
                      | error fault => rfl
                      | ok body => rfl

/-- The codec that goes on with another pool. -/
def withPool (codec : Codec) (pool : BufferPool) : Codec :=
  { codec with buffers := pool }

@[simp] theorem frameOf_withPool (codec : Codec) (pool : BufferPool) (message : Message) :
    (codec.withPool pool).frameOf message = codec.frameOf message :=
  rfl

/-- On a clean pool, encoding adds the frame or nothing, and leaves a clean pool. -/
theorem encode_of_clean (codec : Codec) (clean : codec.buffers.Clean) (message : Message)
    (buffer : Bytes) :
    ∃ pool, pool.Clean ∧ codec.encode message buffer =
      match codec.frameOf message with
      | .ok frame => (.ok (), buffer ++ frame, codec.withPool pool)
      | .error fault => (.error fault, buffer, codec.withPool pool) := by
  -- the scratch comes from a clean pool, and goes back into it whatever preparing has left there
  have frame := prepare_finish codec message (BufferPool.bytes_acquire clean)
  refine ⟨_, BufferPool.clean_release (BufferPool.clean_acquire clean)
    (codec.prepare message codec.buffers.acquire.1).2, ?_⟩
  rw [← frame]
  rfl

/-- What encoding adds to an empty buffer. -/
def encoded (codec : Codec) (message : Message) : Except Fault Bytes :=
  match codec.encode message [] with
  | (.ok (), frame, _) => .ok frame
  | (.error fault, _, _) => .error fault

theorem encoded_of_clean (clean : codec.buffers.Clean) (message : Message) :
    codec.encoded message = codec.frameOf message := by
  obtain ⟨_, -, encoded⟩ := encode_of_clean codec clean message []
  rw [Codec.encoded, encoded]
  cases codec.frameOf message <;> rfl

/-! ## Histories -/

/-- The codec after encoding messages one after another, each into some buffer, whether that
succeeds or not. -/
def encodeEach (codec : Codec) (earlier : List (Message × Bytes)) : Codec :=
  earlier.foldl (fun codec job => (codec.encode job.1 job.2).2.2) codec

theorem clean_encode (clean : codec.buffers.Clean) (message : Message) (buffer : Bytes) :
    ∃ pool, pool.Clean ∧ (codec.encode message buffer).2.2 = codec.withPool pool := by
  obtain ⟨pool, still, answer⟩ := encode_of_clean _ clean message buffer
  refine ⟨pool, still, ?_⟩
  rw [answer]
  cases codec.frameOf message <;> rfl

/-- Whatever was encoded before, only the pool is another one, and it is clean. -/
theorem encodeEach_eq (clean : codec.buffers.Clean) (earlier : List (Message × Bytes)) :
    ∃ pool, pool.Clean ∧ codec.encodeEach earlier = codec.withPool pool := by
  induction earlier generalizing codec with
  | nil => exact ⟨codec.buffers, clean, rfl⟩
  | cons job earlier ih =>
      obtain ⟨pool, still, next⟩ := clean_encode clean job.1 job.2
      obtain ⟨last, lastClean, done⟩ := @ih (codec.withPool pool) still
      refine ⟨last, lastClean, ?_⟩
      rw [encodeEach, List.foldl_cons, next]
      exact done

theorem clean_ofLimit (catalogue : Extension.Catalogue) (limit : Nat) :
    (ofLimit catalogue limit).buffers.Clean :=
  BufferPool.clean_ofSize 16

/-- A codec that has encoded before, with or without success, gives the fault or adds the bytes
that a new codec with the same limit does, into whatever buffer; and after a fault the buffer is as
it was. -/
theorem encode_independent (catalogue : Extension.Catalogue) (limit : Nat)
    (earlier : List (Message × Bytes)) (message : Message) (buffer : Bytes) :
    let fresh := ofLimit catalogue limit
    let used := fresh.encodeEach earlier
    (used.encode message buffer).1 = (fresh.encode message []).1
      ∧ (used.encode message buffer).2.1 = buffer ++ (fresh.encode message []).2.1
      ∧ (used.encode message buffer).2.1 = (fresh.encode message buffer).2.1
      ∧ ∀ fault, (used.encode message buffer).1 = .error fault →
          (used.encode message buffer).2.1 = buffer := by
  intro fresh used
  have clean : fresh.buffers.Clean := clean_ofLimit catalogue limit
  obtain ⟨pool, still, eq⟩ := encodeEach_eq clean earlier
  -- all three encodings are read off the one frame of the message, which takes no notice of pools
  obtain ⟨_, -, again⟩ := encode_of_clean (fresh.withPool pool) still message buffer
  obtain ⟨_, -, first⟩ := encode_of_clean _ clean message []
  obtain ⟨_, -, second⟩ := encode_of_clean _ clean message buffer
  show (used.encode message buffer).1 = _ ∧ _
  rw [show used = fresh.withPool pool from eq, again, first, second, frameOf_withPool]
  cases fresh.frameOf message with
  | error fault => exact ⟨rfl, (List.append_nil buffer).symm, rfl, fun _ _ => rfl⟩
  | ok frame => exact ⟨rfl, rfl, rfl, fun _ h => nomatch h⟩

/-- A pong in front and a request in a format that nobody knows behind it: the codec that has failed
on this request before fails on it again and leaves the buffer alone. -/
theorem encode_independent_unknownFormat :
    let request : Message := ⟨9, 0, 3, .request ⟨"1", "Echo", "say", ["text"], [7], "", ""⟩⟩
    let used := (ofLimit Extension.Catalogue.codecs 64).encodeEach
      [(⟨1, 0, 2, .pong⟩, []), (request, [0xff])]
    (used.encode request [0xff]).1 = .error (.unknownFormat 9)
      ∧ (used.encode request [0xff]).2.1 = [0xff] := by
  intro request used
  have failed : (used.encode request [0xff]).1 = .error (.unknownFormat 9) := rfl
  exact ⟨failed, (encode_independent Extension.Catalogue.codecs 64
    [(⟨1, 0, 2, .pong⟩, []), (request, [0xff])] request [0xff]).2.2.2 _ failed⟩

end Frame.Codec

end RemoteCall
