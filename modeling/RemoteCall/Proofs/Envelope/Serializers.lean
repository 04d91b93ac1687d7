import RemoteCall.Extension.Catalogue
import RemoteCall.Proofs.Compression.Compressors
import RemoteCall.Proofs.Envelope.CompactBodies
import RemoteCall.Proofs.Envelope.JsonBodies

/-! # Serializers and catalogues

    A serializer is FAITHFUL when it reads back every body that it wrote
    (`Serializer.Faithful`), and ORDERLY when it reads bodies of the kind it is
    asked for and tells of anything else that it is unreadable
    (`Serializer.Orderly`); both built-in formats are both (`faithful_builtIn`,
    `orderly_builtIn`).
    A catalogue HOLDS a choice of compressors and serializers when the names
    that the numbers on the wire stand for are registered for them
    (`Catalogue.Holds`); then looking up a number is a function of the number
    (`serializer_of_holds`, `compressor_of_holds`). -/

namespace RemoteCall

open Envelope Compression

namespace Envelope

/-- What is written into an empty buffer is read back, and is something. -/
structure Serializer.Faithful (serializer : Serializer) : Prop where
  read_write : ∀ {body : Body} {plain : Bytes},
    serializer.write body [] = (.ok (), plain) → serializer.read body.kind plain = .ok body
  write_ne_nil : ∀ {body : Body} {plain : Bytes},
    serializer.write body [] = (.ok (), plain) → plain ≠ []

/-- Only bodies of the asked kind are read, and bytes that spell none are told to be unreadable. -/
structure Serializer.Orderly (serializer : Serializer) : Prop where
  kind : ∀ {kind : Kind} {plain : Bytes} {body : Body},
    serializer.read kind plain = .ok body → body.kind = kind
  fault : ∀ {kind : Kind} {plain : Bytes} {fault : Fault},
    serializer.read kind plain = .error fault → ∃ reason, fault = .unreadable reason

section Parts

variable {request : Request → Except Fault Bytes} {response : Response → Except Fault Bytes}
  {readRequest : Bytes → Except Fault Request} {readResponse : Bytes → Except Fault Response}

/-- What a serializer of two parts writes is what the part for the body gives. -/
theorem ofParts_write_eq_ok {body : Body} {plain : Bytes}
    (h : (Serializer.ofParts request response readRequest readResponse).write body []
      = (.ok (), plain)) :
    (∃ r, body = .request r ∧ request r = .ok plain)
      ∨ ∃ r, body = .response r ∧ response r = .ok plain := by
  cases body with
  | request r =>
      refine Or.inl ⟨r, rfl, ?_⟩
      simp only [Serializer.ofParts] at h
      split at h
      · next bytes written => rw [written, ← (Prod.mk.inj h).2, List.nil_append]
      · exact nomatch (Prod.mk.inj h).1
  | response r =>
      refine Or.inr ⟨r, rfl, ?_⟩
      simp only [Serializer.ofParts] at h
      split at h
      · next bytes written => rw [written, ← (Prod.mk.inj h).2, List.nil_append]
      · exact nomatch (Prod.mk.inj h).1
  | ping => exact nomatch (Prod.mk.inj h).1
  | pong => exact nomatch (Prod.mk.inj h).1

/-- A serializer of two parts is faithful when its parts read back what they wrote. -/
theorem faithful_ofParts
    (requests : ∀ r plain, request r = .ok plain → readRequest plain = .ok r ∧ plain ≠ [])
    (responses : ∀ r plain, response r = .ok plain → readResponse plain = .ok r ∧ plain ≠ []) :
    (Serializer.ofParts request response readRequest readResponse).Faithful where
  read_write h := by
    rcases ofParts_write_eq_ok h with ⟨r, rfl, written⟩ | ⟨r, rfl, written⟩
    · show (readRequest _).map Body.request = _
      rw [(requests r _ written).1]
      rfl
    · show (readResponse _).map Body.response = _
      rw [(responses r _ written).1]
      rfl
  write_ne_nil h := by
    rcases ofParts_write_eq_ok h with ⟨r, rfl, written⟩ | ⟨r, rfl, written⟩
    · exact (requests r _ written).2
    · exact (responses r _ written).2

/-- Only bodies of the asked kind are read. -/
theorem kind_of_ofParts_read {kind : Kind} {plain : Bytes} {body : Body}
    (h : (Serializer.ofParts request response readRequest readResponse).read kind plain
      = .ok body) : body.kind = kind := by
  cases kind with
  | request =>
      cases found : readRequest plain with
      | error fault => simp only [Serializer.ofParts, found] at h; exact nomatch h
      | ok r => simp only [Serializer.ofParts, found] at h; cases h; rfl
  | response =>
      cases found : readResponse plain with
      | error fault => simp only [Serializer.ofParts, found] at h; exact nomatch h
      | ok r => simp only [Serializer.ofParts, found] at h; cases h; rfl
  | ping => exact nomatch h
  | pong => exact nomatch h

/-- Bytes that are refused are told to be unreadable, when the parts do so. -/
theorem unreadable_of_ofParts_read {kind : Kind} {plain : Bytes} {fault : Fault}
    (requests : ∀ {plain fault}, readRequest plain = .error fault →
      ∃ reason, fault = .unreadable reason)
    (responses : ∀ {plain fault}, readResponse plain = .error fault →
      ∃ reason, fault = .unreadable reason)
    (h : (Serializer.ofParts request response readRequest readResponse).read kind plain
      = .error fault) : ∃ reason, fault = .unreadable reason := by
  cases kind with
  | request =>
      cases found : readRequest plain with
      | error other =>
          simp only [Serializer.ofParts, found] at h
          obtain rfl : other = fault := Except.error.inj h
          exact requests found
      | ok r => simp only [Serializer.ofParts, found] at h; exact nomatch h
  | response =>
      cases found : readResponse plain with
      | error other =>
          simp only [Serializer.ofParts, found] at h
          obtain rfl : other = fault := Except.error.inj h
          exact responses found
      | ok r => simp only [Serializer.ofParts, found] at h; exact nomatch h
  | ping => exact ⟨_, (Except.error.inj h).symm⟩
  | pong => exact ⟨_, (Except.error.inj h).symm⟩

end Parts

/-! ## The built-in formats -/

/-- Bytes within the limit are written as they are. -/
theorem bounded_eq_ok {bytes plain : Bytes} (h : Blob.bounded bytes = .ok plain) :
    plain = bytes ∧ bytes.length < 2 ^ 64 := by
  rw [Blob.bounded] at h
  split at h
  -- the limit is far below the numbers that lengths are written as
  · next fits =>
      rw [sizeLimit] at fits
      exact ⟨(Except.ok.inj h).symm, by omega⟩
  · exact nomatch h

theorem faithful_compact : compact.Faithful := by
  refine faithful_ofParts (fun r plain written => ?_) (fun r plain written => ?_)
  · obtain ⟨rfl, short⟩ := bounded_eq_ok written
    exact ⟨Blob.ofBytes_of_takes (takes_readRequest short), writeRequest_ne_nil r⟩
  · obtain ⟨rfl, short⟩ := bounded_eq_ok written
    exact ⟨Blob.ofBytes_of_takes (takes_readResponse short), writeResponse_ne_nil r⟩

theorem faithful_json : json.Faithful := by
  refine faithful_ofParts (fun r plain written => ?_) (fun r plain written => ?_)
  · obtain rfl := Except.ok.inj written
    exact ⟨ofJson_of_takes (takes_jsonRequest r), List.cons_ne_nil _ _⟩
  · obtain rfl := Except.ok.inj written
    exact ⟨ofJson_of_takes (takes_jsonResponse r), List.cons_ne_nil _ _⟩

end Envelope

namespace Extension

/-- Both built-in formats read back what they wrote. -/
theorem faithful_builtIn (format : Format) : (builtInSerializer format).Faithful := by
  cases format with
  | compact => exact faithful_compact
  | json => exact faithful_json

theorem mapError_eq_error {α ε : Type} {result : Except ε α} {name : ε → Fault} {fault : Fault}
    (h : result.mapError name = .error fault) : ∃ flaw, fault = name flaw := by
  cases result with
  | error flaw => exact ⟨flaw, (Except.error.inj h).symm⟩
  | ok value => exact nomatch h

/-- Both built-in formats read bodies of the asked kind, and name what they cannot read. -/
theorem orderly_builtIn (format : Format) : (builtInSerializer format).Orderly := by
  have named {α ε : Type} {result : Except ε α} {text : ε → String} {fault : Fault}
      (wrong : (result.mapError fun flaw => .unreadable (text flaw)) = .error fault) :
      ∃ reason, fault = .unreadable reason := by
    obtain ⟨flaw, rfl⟩ := mapError_eq_error wrong
    exact ⟨_, rfl⟩
  cases format with
  | compact => exact ⟨kind_of_ofParts_read, unreadable_of_ofParts_read named named⟩
  | json => exact ⟨kind_of_ofParts_read, unreadable_of_ofParts_read named named⟩

/-! ## Catalogues -/

/-- The names of the wire are registered for some compressors and serializers. -/
structure Catalogue.Holds (catalogue : Catalogue) (compressors : Compression.Method → Compressor)
    (serializers : Format → Serializer) : Prop where
  serializer : ∀ format : Format,
    catalogue.serializers.value format.name = .ok (serializers format)
  compressor : ∀ method : Compression.Method,
    catalogue.compressors.value method.name = .ok (compressors method)

section Holds

variable {catalogue : Catalogue} {compressors : Compression.Method → Compressor}
  {serializers : Format → Serializer}

theorem serializer_of_holds (h : catalogue.Holds compressors serializers) (code : UInt8) :
    catalogue.serializer code =
      match Format.ofCode? code with
      | some format => .ok (serializers format)
      | none => .error (.unknownFormat code) := by
  rw [Catalogue.serializer, Catalogue.formatName]
  cases Format.ofCode? code with
  | none => rfl
  | some format => exact h.serializer format

theorem compressor_of_holds (h : catalogue.Holds compressors serializers) (code : UInt8) :
    catalogue.compressor code =
      match Compression.Method.ofCode? code with
      | some method => .ok (compressors method)
      | none => .error (.unknownCompression code) := by
  rw [Catalogue.compressor, Catalogue.compressionName]
  cases Compression.Method.ofCode? code with
  | none => rfl
  | some method => exact h.compressor method

end Holds

/-- A new catalogue with the built-in formats and compressions holds them, over any libraries. -/
theorem holds_addCodecsOf (libraries : Libraries) :
    (Catalogue.empty.addCodecsOf libraries).Holds libraries.compressor builtInSerializer where
  serializer format := by
    cases format <;> simp [Catalogue.addCodecsOf, Loader.registerAll, Loader.value_register,
      Format.name]
  compressor method := by
    cases method <;> simp [Catalogue.addCodecsOf, Loader.registerAll, Loader.value_register,
      Compression.Method.name]

/-- The built-in catalogue holds what it is named for. -/
theorem holds_codecs : Catalogue.codecs.Holds builtInCompressor builtInSerializer :=
  holds_addCodecsOf ownLibraries

end Extension

end RemoteCall
