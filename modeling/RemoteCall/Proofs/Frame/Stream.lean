import RemoteCall.Proofs.Frame.Decoding

/-! # Streams that arrive in chunks

    A stream is decoded as it arrives: every chunk goes behind what was left
    over, and then messages are taken until none is complete or a fault ends it
    for good (`feed`, `feedAll`).  How it is cut into chunks makes no
    difference (`feedAll_agrees`).

    The route: `Run` says step by step what decoding a buffer gives, and
    `decodeAll` computes just that (`decodeAll_run`).  A run that waits is the
    beginning of the run with more bytes behind (`Run.append_wait`), and a run
    that ended in a fault ends in it with more bytes too (`Run.append_fault`).
    So whatever was fed, the state is that of decoding at once some front part
    of it: all of it as long as there is no fault (`Fed`). -/

namespace RemoteCall.Frame

/-! ## Runs -/

/-- Decoding a buffer step by step: the messages, the fault that ended them if there is one, and
what is left. -/
inductive Run (codec : Codec) : Bytes → List Message → Option Fault → Bytes → Prop
  | wait {buffer rest : Bytes} (h : codec.decode buffer = (.ok none, rest)) :
      Run codec buffer [] none rest
  | fault {buffer rest : Bytes} {fault : Fault} (h : codec.decode buffer = (.error fault, rest)) :
      Run codec buffer [] (some fault) rest
  | message {buffer rest left : Bytes} {message : Message} {messages : List Message}
      {fault : Option Fault} (h : codec.decode buffer = (.ok (some message), rest))
      (run : Run codec rest messages fault left) :
      Run codec buffer (message :: messages) fault left

variable {codec : Codec}

/-- A message takes at least a header. -/
theorem length_of_decode {buffer rest : Bytes} {message : Message}
    (h : codec.decode buffer = (.ok (some message), rest)) : rest.length < buffer.length := by
  obtain ⟨length, known, whole, -, rfl⟩ := Codec.decode_eq_message h
  obtain ⟨_, _, _, _, _, least, _⟩ := frameLength_eq_some_iff.mp known
  rw [headerLength] at least
  rw [List.length_drop]
  omega

/-- The loop follows the run, as long as it is not cut short. -/
theorem decodeFrom_run {buffer left : Bytes} {messages : List Message} {fault : Option Fault}
    (run : Run codec buffer messages fault left) {fuel : Nat} (enough : buffer.length < fuel)
    (found : List Message) :
    codec.decodeFrom fuel buffer found = ⟨found.reverse ++ messages, fault, left⟩ := by
  induction run generalizing fuel found with
  | wait h =>
      obtain ⟨fuel, rfl⟩ := Nat.exists_eq_succ_of_ne_zero (Nat.ne_zero_of_lt enough)
      rw [Codec.decodeFrom, h, List.append_nil]
  | fault h =>
      obtain ⟨fuel, rfl⟩ := Nat.exists_eq_succ_of_ne_zero (Nat.ne_zero_of_lt enough)
      rw [Codec.decodeFrom, h, List.append_nil]
  | message h run ih =>
      obtain ⟨fuel, rfl⟩ := Nat.exists_eq_succ_of_ne_zero (Nat.ne_zero_of_lt enough)
      have shorter := length_of_decode h
      rw [Codec.decodeFrom, h]
      dsimp only
      rw [ih (by omega), List.reverse_cons, List.append_assoc, List.singleton_append]

/-- Every buffer has a run. -/
theorem exists_run (codec : Codec) (buffer : Bytes) :
    ∃ messages fault left, Run codec buffer messages fault left := by
  cases decoded : codec.decode buffer with
  | mk answer rest =>
      cases answer with
      | error fault => exact ⟨[], some fault, rest, .fault decoded⟩
      | ok answer =>
          cases answer with
          | none => exact ⟨[], none, rest, .wait decoded⟩
          | some message =>
              -- a message leaves fewer bytes, which is what ends the recursion
              have shorter := length_of_decode decoded
              obtain ⟨messages, fault, left, run⟩ := exists_run codec rest
              exact ⟨message :: messages, fault, left, .message decoded run⟩
termination_by buffer.length

/-- What a run gives is what `decodeAll` computes. -/
theorem Run.decodeAll {buffer left : Bytes} {messages : List Message} {fault : Option Fault}
    (run : Run codec buffer messages fault left) :
    codec.decodeAll buffer = ⟨messages, fault, left⟩ :=
  decodeFrom_run run (Nat.lt_succ_self _) []

theorem decodeAll_run (codec : Codec) (buffer : Bytes) :
    Run codec buffer (codec.decodeAll buffer).messages (codec.decodeAll buffer).fault
      (codec.decodeAll buffer).left := by
  obtain ⟨messages, fault, left, run⟩ := exists_run codec buffer
  rw [run.decodeAll]
  exact run

/-! ## More bytes -/

/-- A run that waits goes on when more bytes come. -/
theorem Run.append_wait {buffer left : Bytes} {messages : List Message} {fault : Option Fault}
    (run : Run codec buffer messages fault left) (waits : fault = none) {more last : Bytes}
    {later : List Message} {ends : Option Fault} (next : Run codec (left ++ more) later ends last) :
    Run codec (buffer ++ more) (messages ++ later) ends last := by
  induction run with
  | wait h =>
      obtain ⟨rfl, -⟩ := Codec.decode_eq_none_iff.mp h
      exact next
  | fault h => exact nomatch waits
  | message h run ih => exact .message (Codec.decode_append h more) (ih waits next)

/-- Two faults at the same place of a stream, of which `a` and `b` had arrived from there on: the
same one, or a bad mark, told as far as it had arrived. -/
def SameFault (a b : Bytes) (f g : Fault) : Prop :=
  f = g ∨ f = .badMagic (arrivedMark a) ∧ g = .badMagic (arrivedMark b)

/-- A run that ended in a fault takes nothing more when more bytes come. -/
theorem Run.append_fault {buffer left : Bytes} {messages : List Message} {ends : Option Fault}
    (run : Run codec buffer messages ends left) {fault : Fault} (failed : ends = some fault)
    (more : Bytes) :
    ∃ later, Run codec (buffer ++ more) messages (some later) (left ++ more)
      ∧ SameFault left (left ++ more) fault later := by
  induction run with
  | wait h => exact nomatch failed
  | fault h =>
      obtain rfl := Option.some.inj failed
      obtain ⟨later, again, same⟩ := Codec.decode_append_error h more
      refine ⟨later, .fault again, ?_⟩
      rcases same with rfl | ⟨before, after⟩
      · exact Or.inl rfl
      · exact Or.inr ⟨before, after⟩
  | message h run ih =>
      obtain ⟨later, again, same⟩ := ih failed
      exact ⟨later, .message (Codec.decode_append h more) again, same⟩

/-! ## Feeding -/

namespace Codec

/-- Takes one more chunk of a stream; nothing is taken any more once there was a fault. -/
def feed (codec : Codec) (state : Decoded) (chunk : Bytes) : Decoded :=
  match state.fault with
  | some _ => state
  | none =>
    let next := codec.decodeAll (state.left ++ chunk)
    ⟨state.messages ++ next.messages, next.fault, next.left⟩

/-- What a stream gives that arrives in some chunks. -/
def feedAll (codec : Codec) (chunks : List Bytes) : Decoded :=
  chunks.foldl codec.feed ⟨[], none, []⟩

end Codec

/-- The state after some bytes were fed is that of decoding a front part of them at once; as long as
there was no fault it is all of them. -/
def Fed (codec : Codec) (state : Codec.Decoded) (bytes : Bytes) : Prop :=
  ∃ front, front <+: bytes ∧ state = codec.decodeAll front ∧ (state.fault = none → front = bytes)

theorem fed_nil (codec : Codec) : Fed codec ⟨[], none, []⟩ [] :=
  ⟨[], List.prefix_refl [], rfl, fun _ => rfl⟩

/-- One chunk more keeps the state that of decoding at once. -/
theorem fed_feed {state : Codec.Decoded} {bytes : Bytes} (h : Fed codec state bytes)
    (chunk : Bytes) : Fed codec (codec.feed state chunk) (bytes ++ chunk) := by
  obtain ⟨front, before, rfl, all⟩ := h
  have run := decodeAll_run codec front
  cases ends : (codec.decodeAll front).fault with
  | some fault =>
      -- the stream is over: the chunk is not looked at
      refine ⟨front, before.trans (List.prefix_append bytes chunk), ?_, ?_⟩
      · rw [Codec.feed, ends]
      · intro none
        rw [Codec.feed, ends] at none
        exact nomatch ends.symm.trans none
  | none =>
      -- no fault yet, so all that was fed has been decoded, and the chunk goes behind what is left
      obtain rfl := all ends
      rw [ends] at run
      have next := decodeAll_run codec ((codec.decodeAll front).left ++ chunk)
      have whole := run.append_wait rfl next
      refine ⟨front ++ chunk, List.prefix_refl _, ?_, fun _ => rfl⟩
      rw [Codec.feed, ends, whole.decodeAll]

theorem fed_foldl (chunks : List Bytes) {state : Codec.Decoded} {bytes : Bytes}
    (h : Fed codec state bytes) :
    Fed codec (chunks.foldl codec.feed state) (bytes ++ chunks.flatten) := by
  induction chunks generalizing state bytes with
  | nil =>
      rw [List.flatten_nil, List.append_nil]
      exact h
  | cons chunk chunks ih =>
      have next := ih (fed_feed h chunk)
      rw [List.append_assoc] at next
      exact next

theorem fed_feedAll (codec : Codec) (chunks : List Bytes) :
    Fed codec (codec.feedAll chunks) chunks.flatten :=
  fed_foldl chunks (fed_nil codec)

/-! ## Agreement -/

/-- Two ways to receive a stream that give the same: the same messages, and either the same bytes
are left and there is no fault, or both end in the same fault, for which different parts of what
follows may have arrived. -/
structure Codec.Decoded.Agrees (a b : Codec.Decoded) : Prop where
  messages : a.messages = b.messages
  outcome : (a.fault = none ∧ b.fault = none ∧ a.left = b.left)
    ∨ ∃ f g, a.fault = some f ∧ b.fault = some g ∧ SameFault a.left b.left f g
        ∧ (a.left <+: b.left ∨ b.left <+: a.left)

theorem Codec.Decoded.Agrees.symm {a b : Codec.Decoded} (h : a.Agrees b) : b.Agrees a := by
  refine ⟨h.messages.symm, ?_⟩
  rcases h.outcome with ⟨none, none', left⟩ | ⟨f, g, af, bg, same, parts⟩
  · exact Or.inl ⟨none', none, left.symm⟩
  · refine Or.inr ⟨g, f, bg, af, ?_, parts.symm⟩
    rcases same with rfl | ⟨before, after⟩
    · exact Or.inl rfl
    · exact Or.inr ⟨after, before⟩

/-- Decoding a front part at once and decoding more at once agree, when the front part ended in a
fault. -/
theorem agrees_append {front : Bytes} {fault : Fault}
    (failed : (codec.decodeAll front).fault = some fault) (more : Bytes) :
    (codec.decodeAll front).Agrees (codec.decodeAll (front ++ more)) := by
  obtain ⟨later, again, same⟩ := (decodeAll_run codec front).append_fault failed more
  rw [again.decodeAll]
  exact ⟨rfl, Or.inr ⟨fault, later, failed, rfl, same, Or.inl (List.prefix_append _ _)⟩⟩

/-- States fed from the same bytes agree, when one of them saw no more than the other. -/
theorem agrees_within {bytes front longer : Bytes} (within : front <+: longer)
    (before : longer <+: bytes) (all : (codec.decodeAll front).fault = none → front = bytes) :
    (codec.decodeAll front).Agrees (codec.decodeAll longer) := by
  cases ends : (codec.decodeAll front).fault with
  | some fault =>
      obtain ⟨more, rfl⟩ := within
      exact agrees_append ends more
  | none =>
      -- without a fault all bytes were decoded, so the longer part is no longer
      obtain rfl := all ends
      obtain rfl := within.eq_of_length (Nat.le_antisymm within.length_le before.length_le)
      exact ⟨rfl, Or.inl ⟨ends, ends, rfl⟩⟩

/-- However a stream is cut into chunks, it gives the same messages, and the same bytes are left
over or the same fault ends it. -/
theorem feedAll_agrees (codec : Codec) {chunks others : List Bytes}
    (same : chunks.flatten = others.flatten) :
    (codec.feedAll chunks).Agrees (codec.feedAll others) := by
  obtain ⟨front, before, state, all⟩ := fed_feedAll codec chunks
  obtain ⟨front', before', state', all'⟩ := fed_feedAll codec others
  rw [← same] at before' all'
  rw [state] at all
  rw [state'] at all'
  rw [state, state']
  -- both have decoded a front part of the same bytes, and one of the parts is within the other
  rcases List.prefix_or_prefix_of_prefix before before' with within | within
  · exact agrees_within within before' all
  · exact (agrees_within within before all').symm

/-- A ping and a bad mark behind it, once cut within the mark, the header and the bad mark, and once
whole. -/
theorem feedAll_agrees_ping :
    let codec := Codec.standard Extension.Catalogue.codecs
    let ping := header headerLength ⟨1, 0, 5, .ping⟩
    (codec.feedAll [ping.take 3, [], ping.drop 3 ++ [0x67], [0x78, 0x79], mark]).Agrees
      (codec.feedAll [ping ++ [0x67, 0x78, 0x79] ++ mark]) :=
  feedAll_agrees (Codec.standard Extension.Catalogue.codecs) rfl

end RemoteCall.Frame
