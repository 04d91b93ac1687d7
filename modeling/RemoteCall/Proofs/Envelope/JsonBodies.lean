import RemoteCall.Envelope.Json
import RemoteCall.Proofs.Json.Parts

/-! # JSON bodies read back

    A JSON body is the object of its fields, so the loop over the fields leads
    from a record without values, field by field, to the record with all of
    them (`requestLeads`, `responseLeads`), from which the body is finished.
    Every field stands once and none is missing, which is all that the reader
    asks of the order. -/

namespace RemoteCall.Envelope

open Json

/-! ## Values of fields -/

/-- A byte of a list starts with a digit. -/
theorem startsItem_writeNat (b : UInt8) : StartsItem (Json.writeNat b.toNat) := by
  obtain ⟨all, -, first, head, -⟩ := decimal_byte ⟨b.toNat, b.toNat_lt⟩
  dsimp only at all head
  cases spelled : Json.writeNat b.toNat with
  | nil => rw [spelled] at head; exact nomatch head
  | cons d ds =>
      rw [spelled] at all
      have digit : isDigit d = true := List.all_eq_true.mp all d (List.mem_cons_self ..)
      exact ⟨d, ds, rfl, not_blank_of_isDigit digit⟩

theorem takes_jsonBytes (bytes : Bytes) : Takes jsonBytes (bytesJson bytes) bytes :=
  Json.takes_readList (fun b _ => startsItem_writeNat b) (fun b _ => Json.takes_readByte b)

theorem takes_jsonText (text : String) : Takes jsonText (Json.writeText text) text :=
  Json.takes_readText "a string" text

theorem takes_jsonTexts (texts : List String) :
    Takes (Json.readList jsonText) (Json.writeList Json.writeText texts) texts :=
  Json.takes_readList (fun text _ => ⟨0x22, _, rfl, by decide, by decide⟩)
    (fun text _ => (takes_jsonText text).before)

theorem takes_jsonOutcome (outcome : Outcome) :
    Takes jsonOutcome (Json.writeText (outcomeName outcome)) outcome := by
  intro rest
  have name := Json.takes_readText "variant identifier" (outcomeName outcome) rest
  -- a quote in front tells the name of an outcome from an object
  have quote : ∃ more, Json.writeText (outcomeName outcome) ++ rest = 0x22 :: more := ⟨_, rfl⟩
  obtain ⟨more, spelled⟩ := quote
  rw [spelled] at name ⊢
  rw [jsonOutcome, bind_of_ok (peek_cons (by decide) more)]
  show jsonOutcomeName (0x22 :: more) = _
  rw [jsonOutcomeName, bind_of_ok name]
  cases outcome <;> rfl

/-- The optional data of a response. -/
theorem takes_jsonData (data : Option Bytes) :
    Takes jsonData (match data with
      | none => writeNull
      | some bytes => bytesJson bytes) data := by
  intro rest
  cases data with
  | none => rfl
  | some bytes =>
      have found := takes_jsonBytes bytes rest
      -- a list never starts as the word for none does
      have bracket : ∃ more, bytesJson bytes ++ rest = 0x5b :: more := by
        cases bytes with
        | nil => exact ⟨_, rfl⟩
        | cons b bytes => exact ⟨_, rfl⟩
      obtain ⟨more, spelled⟩ := bracket
      rw [spelled] at found
      dsimp only
      rw [spelled, jsonData, bind_of_ok (peek_cons (by decide) more)]
      show (jsonBytes >>= fun bytes => pure (some bytes) : Json.Reader (Option Bytes)) _ = _
      rw [bind_of_ok found]
      rfl

/-! ## Bodies -/

/-- The record with all fields of a request. -/
def RequestFields.ofRequest (r : Request) : RequestFields :=
  ⟨some r.id, some r.interfaceName, some r.method, some r.paramTypes, some r.parameters,
    some r.group, some r.version⟩

/-- The record with all fields of a response. -/
def ResponseFields.ofResponse (r : Response) : ResponseFields :=
  ⟨some r.requestId, some r.outcome, some r.message, some r.data⟩

/-- The written fields of a request, in their order, fill the record of its fields. -/
theorem requestLeads (r : Request) :
    FieldsLead RequestFields.read {} [
      ("request_id", Json.writeText r.id),
      ("interface_name", Json.writeText r.interfaceName),
      ("method_name", Json.writeText r.method),
      ("param_types", Json.writeList Json.writeText r.paramTypes),
      ("parameters", bytesJson r.parameters),
      ("group", Json.writeText r.group),
      ("version", Json.writeText r.version)] (.ofRequest r) := by
  refine ⟨_, (takes_readOnce (takes_jsonText r.id)).last, ?_⟩
  refine ⟨_, (takes_readOnce (takes_jsonText r.interfaceName)).last, ?_⟩
  refine ⟨_, (takes_readOnce (takes_jsonText r.method)).last, ?_⟩
  refine ⟨_, (takes_readOnce (takes_jsonTexts r.paramTypes)).last, ?_⟩
  refine ⟨_, (takes_readOnce (takes_jsonBytes r.parameters)).last, ?_⟩
  refine ⟨_, (takes_readOnce (takes_jsonText r.group)).last, ?_⟩
  refine ⟨_, (takes_readOnce (takes_jsonText r.version)).last, ?_⟩
  rfl

/-- The written fields of a response, in their order, fill the record of its fields. -/
theorem responseLeads (r : Response) :
    FieldsLead ResponseFields.read {} [
      ("request_id", Json.writeText r.requestId),
      ("code", Json.writeText (outcomeName r.outcome)),
      ("message", Json.writeText r.message),
      ("data", match r.data with
        | none => writeNull
        | some data => bytesJson data)] (.ofResponse r) := by
  refine ⟨_, (takes_readOnce (takes_jsonText r.requestId)).last, ?_⟩
  refine ⟨_, (takes_readOnce (takes_jsonOutcome r.outcome)).last, ?_⟩
  refine ⟨_, (takes_readOnce (takes_jsonText r.message)).last, ?_⟩
  refine ⟨_, (takes_readOnce (takes_jsonData r.data)).last, ?_⟩
  rfl

theorem takes_jsonRequest (r : Request) : Takes jsonRequest (requestJson r) r :=
  takes_readStructure (List.cons_ne_nil _ _) (requestLeads r) rfl

theorem takes_jsonResponse (r : Response) : Takes jsonResponse (responseJson r) r :=
  takes_readStructure (List.cons_ne_nil _ _) (responseLeads r) rfl

/-- A text that a reader takes whole is the text of its value. -/
theorem ofJson_of_takes {α : Type} {reader : Json.Reader α} {bytes : Bytes} {value : α}
    (h : Takes reader bytes value) : ofJson reader bytes = .ok value := by
  have whole := h []
  rw [List.append_nil] at whole
  rw [ofJson, Json.readAll, whole]
  rfl

end RemoteCall.Envelope
