import RemoteCall.Envelope.Compact
import RemoteCall.Proofs.Blob.Parts

/-! # Compact bodies read back

    A compact body is the row of its fields, so reading it back is one step for
    each field (`takes_readRequest`, `takes_readResponse`).  The reader knows
    no limit, but lengths have to fit eight bytes: the limit on the whole body
    sees to that, since no field is longer than the body it stands in. -/

namespace RemoteCall.Envelope

open Blob

/-! ## Fields -/

theorem takes_readOutcome (outcome : Outcome) :
    Takes readOutcome (writeNat (outcomeChoice outcome)) outcome := by
  intro rest
  cases outcome <;> rfl

theorem takes_readTexts {texts : List String}
    (short : (writeList writeText texts).length < 2 ^ 64) :
    Takes (readList readText) (writeList writeText texts) texts := by
  refine takes_readList ?_ ?_
  · intro text mem
    have within := length_le_writeList writeText mem
    have := utf8ByteSize_le_writeText text
    exact takes_readText (by omega)
  · have := length_items_le_writeList writeText texts one_le_writeText
    omega

theorem takes_readData {data : Option Bytes} (short : (writeData data).length < 2 ^ 64) :
    Takes (readOption (readList readByte)) (writeData data) data := by
  have item : ∀ bytes ∈ data, Takes (readList readByte) (writeBytes bytes) bytes := by
    rintro bytes mem
    obtain rfl : data = some bytes := mem
    have := length_le_writeBytes bytes
    rw [writeData, List.length_cons] at short
    exact takes_readBytes (by omega)
  have both := takes_readOption item
  cases data <;> exact both

/-! ## Bodies -/

theorem takes_readRequest {r : Request} (short : (writeRequest r).length < 2 ^ 64) :
    Takes readRequest (writeRequest r) r := by
  have id := utf8ByteSize_le_writeText r.id
  have interfaceName := utf8ByteSize_le_writeText r.interfaceName
  have method := utf8ByteSize_le_writeText r.method
  have parameters := length_le_writeBytes r.parameters
  have group := utf8ByteSize_le_writeText r.group
  have version := utf8ByteSize_le_writeText r.version
  simp only [writeRequest, List.length_append] at short
  simp only [writeRequest, List.append_assoc]
  -- one step for each field, in the order of the record
  refine (takes_readText (by omega)).bind ?_
  refine (takes_readText (by omega)).bind ?_
  refine (takes_readText (by omega)).bind ?_
  refine (takes_readTexts (by omega)).bind ?_
  refine (takes_readBytes (by omega)).bind ?_
  refine (takes_readText (by omega)).bind ?_
  exact (takes_readText (by omega)).last

theorem takes_readResponse {r : Response} (short : (writeResponse r).length < 2 ^ 64) :
    Takes readResponse (writeResponse r) r := by
  have id := utf8ByteSize_le_writeText r.requestId
  have message := utf8ByteSize_le_writeText r.message
  simp only [writeResponse, List.length_append] at short
  simp only [writeResponse, List.append_assoc]
  refine (takes_readText (by omega)).bind ?_
  refine (takes_readOutcome r.outcome).bind ?_
  refine (takes_readText (by omega)).bind ?_
  exact (takes_readData (by omega)).last

/-- A request in front of it is never empty. -/
theorem writeRequest_ne_nil (r : Request) : writeRequest r ≠ [] := by
  intro h
  have := one_le_writeText r.id
  have none : (writeRequest r).length = 0 := by
    rw [h]
    rfl
  simp only [writeRequest, List.length_append] at none
  omega

theorem writeResponse_ne_nil (r : Response) : writeResponse r ≠ [] := by
  intro h
  have := one_le_writeText r.requestId
  have none : (writeResponse r).length = 0 := by
    rw [h]
    rfl
  simp only [writeResponse, List.length_append] at none
  omega

end RemoteCall.Envelope
