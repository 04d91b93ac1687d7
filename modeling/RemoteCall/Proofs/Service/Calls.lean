import RemoteCall.Blob.Shape
import RemoteCall.Client.Proxy
import RemoteCall.Proofs.Blob.Delimited
import RemoteCall.Proofs.Frame.RoundTrip
import RemoteCall.Service.Provider

/-! # A remote call agrees with the local one

    A call goes through five written forms: the blob of the argument, the
    envelope and the frame of the request, those of the response, and the blob
    of the result.  Each of them is read back as what was written, so that what
    the caller gets is what the method gives (`call_agrees`).

    The route: a message whose frame fits arrives as it was sent
    (`deliver_of_fits`), therefore the response that arrives is that of the
    provider (`exchange_eq`).  A request that the provider refuses is refused
    by every provider that publishes the same names and parameter types
    (`refusal?_eq_of_alike`), whatever its methods do; any other request runs
    the method that it names on the argument itself (`handle_of_method`). -/

namespace RemoteCall

open RemoteCall.Frame Extension Blob

/-! ## Messages that arrive -/

/-- One end of a connection: what its codec was made of, and all that it has encoded before. -/
structure Party where
  catalogue : Catalogue
  limit : Nat
  earlier : List (Message × Bytes)

namespace Party

/-- The codec of a party. -/
def codec (party : Party) : Codec :=
  (Codec.ofLimit party.catalogue party.limit).encodeEach party.earlier

/-- What arrives at a party when another one sends a message. -/
def deliver (sender receiver : Party) (message : Message) : Except Fault Message := do
  let frame ← sender.codec.encoded message
  match ← (receiver.codec.decode frame).1 with
  | some arrived => return arrived
  | none => throw .missingBody

/-- A message has a frame, which is not too long for the receiver. -/
def Fits (sender receiver : Party) (message : Message) : Prop :=
  ∃ frame, sender.codec.encoded message = .ok frame ∧ frame.length ≤ receiver.codec.limit

/-- A message whose frame fits arrives as it was sent. -/
theorem deliver_of_fits {compressors : Compression.Method → Compression.Compressor}
    (lossless : ∀ method, (compressors method).Lossless) {sender receiver : Party}
    (sends : sender.catalogue.Holds compressors builtInSerializer)
    (receives : receiver.catalogue.Holds compressors builtInSerializer)
    {message : Message} (fits : sender.Fits receiver message) :
    sender.deliver receiver message = .ok message := by
  obtain ⟨frame, encoded, short⟩ := fits
  obtain ⟨pool, clean, used⟩ := Codec.encodeEach_eq
    (Codec.clean_ofLimit sender.catalogue sender.limit) sender.earlier
  obtain ⟨other, -, usedToo⟩ := Codec.encodeEach_eq
    (Codec.clean_ofLimit receiver.catalogue receiver.limit) receiver.earlier
  -- neither what the sender nor what the receiver has encoded before shows in the frame
  have made : (Codec.ofLimit sender.catalogue sender.limit).frameOf message = .ok frame := by
    rw [← encoded, codec, used, Codec.encoded_of_clean (show (Codec.buffers _).Clean from clean)]
    rfl
  have isFrame := Codec.isFrame_frameOf sends lossless (limit_ofLimit_le _ _) made
  have knows : receiver.codec.catalogue.Holds compressors builtInSerializer := by
    rw [codec, usedToo]
    exact receives
  have back : receiver.codec.decode frame = (.ok (some message), []) :=
    (decode_eq_message_iff knows orderly_builtIn).mpr
      ⟨frame, isFrame.of_length_le short, (List.append_nil frame).symm⟩
  rw [deliver, encoded]
  show (receiver.codec.decode frame).1 >>= _ = _
  rw [back]
  rfl

end Party

/-! ## Requests that run no method -/

/-- Services of the same interface, with methods of the same names and parameter types, which may do
anything. -/
structure Service.Alike (service other : Service) : Prop where
  interfaceName : service.interfaceName = other.interfaceName
  methods : ∀ name, (service.methods.get? name).map Method.paramTypes
    = (other.methods.get? name).map Method.paramTypes

namespace Provider

variable {provider other : Provider} {request : Request}

/-- Providers of services that are alike, under the same keys. -/
def Alike (provider other : Provider) : Prop :=
  ∀ key, Option.Rel Service.Alike (provider.services.get? key) (other.services.get? key)

/-- Why a request is refused, if it is: the first of the three checks that fails. -/
def refusal? (provider : Provider) (request : Request) : Option Fault :=
  match provider.services.get? request.serviceKey with
  | none => some (.unpublished request.serviceKey)
  | some service =>
    match (service.methods.get? request.method).map Method.paramTypes with
    | none => some (.noMethod service.interfaceName request.method)
    | some expected =>
      if expected ≠ request.paramTypes then
        some (.parameterTypes request.method expected request.paramTypes)
      else none

/-- A refused request is answered by the wording of why. -/
theorem handle_of_refusal? {fault : Fault} (h : provider.refusal? request = some fault) :
    provider.handle request = .ofFailure request.id fault.message := by
  have refused : provider.call request = .error fault := by
    rw [refusal?] at h
    rw [call, get]
    cases published : provider.services.get? request.serviceKey with
    | none =>
        rw [published] at h
        obtain rfl := Option.some.inj h
        rfl
    | some service =>
        rw [published] at h
        dsimp only at h
        show service.invoke _ _ _ = _
        rw [Service.invoke]
        cases named : service.methods.get? request.method with
        | none =>
            rw [named] at h
            obtain rfl := Option.some.inj h
            rfl
        | some method =>
            rw [named] at h
            dsimp only [Option.map_some] at h ⊢
            split at h
            · next differ =>
                obtain rfl := Option.some.inj h
                exact if_pos differ
            · exact nomatch h
  rw [handle, refused]

/-- What methods do plays no part in refusing. -/
theorem refusal?_eq_of_alike (alike : provider.Alike other) (request : Request) :
    other.refusal? request = provider.refusal? request := by
  have same := alike request.serviceKey
  rw [refusal?, refusal?]
  generalize provider.services.get? request.serviceKey = published at same
  generalize other.services.get? request.serviceKey = publishedToo at same
  cases same with
  | none => rfl
  | some both =>
      dsimp only
      rw [both.interfaceName, both.methods request.method]

/-- A request that gives a method the blob of an argument is answered by what the method makes of
the argument. -/
theorem handle_of_method {α β ε : Type} {service : Service} {param : Form α} {result : Form β}
    {wording : ε → String} {run : α → Except ε β} {argument : α}
    (published : provider.services.get? request.serviceKey = some service)
    (named : service.methods.get? request.method = some (.ofFunction param result wording run))
    (types : request.paramTypes = [param.name])
    (blob : param.ofBlob request.parameters = .ok argument) :
    provider.handle request =
      match run argument with
      | .ok value =>
        match result.toBlob value with
        | .ok data => .ofData request.id (some data)
        | .error fault => .ofFailure request.id fault.message
      | .error failure => .ofFailure request.id (Fault.invocation (wording failure)).message := by
  have called : provider.call request =
      match run argument with
      | .ok value => result.toBlob value
      | .error failure => .error (.invocation (wording failure)) := by
    rw [call, get, published]
    show service.invoke _ _ _ = _
    rw [Service.invoke, named]
    refine (if_neg fun differ => differ types.symm).trans ?_
    rw [Method.ofFunction]
    dsimp only
    rw [blob]
    rfl
  rw [handle, called]
  cases run argument with
  | error failure => rfl
  | ok value => rfl

end Provider

/-! ## Proxies -/

namespace Proxy

/-- The request that a proxy makes. -/
theorem request_eq_ok {α : Type} {identity : ServiceIdentity} {id name : String} {param : Form α}
    {argument : α} {made : Request}
    (h : request identity id name param argument = .ok made) :
    made.id = id ∧ made.serviceKey = identity.key ∧ made.method = name
      ∧ made.paramTypes = [param.name] ∧ param.toBlob argument = .ok made.parameters := by
  rw [request] at h
  cases written : param.toBlob argument with
  | error fault =>
      rw [written] at h
      exact nomatch h
  | ok blob =>
      rw [written] at h
      obtain rfl := Except.ok.inj h
      exact ⟨rfl, rfl, rfl, rfl, rfl⟩

theorem check_ofFailure (identity : ServiceIdentity) (requestId reason : String) :
    check identity requestId (.ofFailure requestId reason)
      = .error (.callFailed identity.name requestId reason) :=
  if_neg fun differ => differ rfl

theorem check_ofData (identity : ServiceIdentity) (requestId : String) (data : Option Bytes) :
    check identity requestId (.ofData requestId data) = .ok () :=
  if_neg fun differ => differ rfl

end Proxy

/-! ## Calls over a wire -/

/-- Two parties, and the numbers of the frames that go between them. -/
structure Wire where
  client : Party
  server : Party
  format : UInt8
  compression : UInt8
  frameId : UInt32

namespace Wire

/-- The message with a body. -/
def message (wire : Wire) (body : Body) : Message :=
  ⟨wire.format, wire.compression, wire.frameId, body⟩

/-- The response that arrives at the client when it sends a request. -/
def exchange (wire : Wire) (provider : Provider) (request : Request) : Except Fault Response := do
  let arrived ← wire.client.deliver wire.server (wire.message (.request request))
  let .request request := arrived.body | throw .missingBody
  let answer : Message :=
    ⟨arrived.format, arrived.compression, arrived.id, .response (provider.handle request)⟩
  let back ← wire.server.deliver wire.client answer
  let .response response := back.body | throw .missingBody
  return response

/-- What comes of a request, for a proxy that waits for a result of some type. -/
def send {β : Type} (wire : Wire) (provider : Provider) (identity : ServiceIdentity)
    (result : Form β) (request : Request) : Except Fault β := do
  let response ← wire.exchange provider request
  Proxy.result identity request.id result response

/-- The call of a method by a proxy. -/
def call {α β : Type} (wire : Wire) (provider : Provider) (identity : ServiceIdentity)
    (id method : String) (param : Form α) (result : Form β) (argument : α) : Except Fault β := do
  let request ← Proxy.request identity id method param argument
  wire.send provider identity result request

/-- The frames of a request and of its response fit. -/
structure Fits (wire : Wire) (provider : Provider) (request : Request) : Prop where
  there : wire.client.Fits wire.server (wire.message (.request request))
  back : wire.server.Fits wire.client (wire.message (.response (provider.handle request)))

/-- Both parties know some compressors, and these are lossless. -/
structure Sound (wire : Wire) (compressors : Compression.Method → Compression.Compressor) :
    Prop where
  client : wire.client.catalogue.Holds compressors builtInSerializer
  server : wire.server.catalogue.Holds compressors builtInSerializer
  lossless : ∀ method, (compressors method).Lossless

variable {α β ε : Type} {wire : Wire} {compressors : Compression.Method → Compression.Compressor}
  {provider : Provider} {request : Request}

/-- The response that arrives is that of the provider. -/
theorem exchange_eq (sound : wire.Sound compressors) (fits : wire.Fits provider request) :
    wire.exchange provider request = .ok (provider.handle request) := by
  have there := Party.deliver_of_fits sound.lossless sound.client sound.server fits.there
  have back := Party.deliver_of_fits sound.lossless sound.server sound.client fits.back
  rw [exchange, there]
  show wire.server.deliver wire.client (wire.message (.response (provider.handle request)))
    >>= _ = _
  rw [back]
  rfl

/-- A failure is told to the caller. -/
theorem send_of_failure (sound : wire.Sound compressors) (fits : wire.Fits provider request)
    (identity : ServiceIdentity) (result : Form β) {reason : String}
    (failed : provider.handle request = .ofFailure request.id reason) :
    wire.send provider identity result request
      = .error (.callFailed identity.name request.id reason) := by
  rw [send, exchange_eq sound fits, failed]
  show Proxy.result identity request.id result (.ofFailure request.id reason) = _
  rw [Proxy.result, Proxy.check_ofFailure]
  rfl

/-- A result is what the caller gets. -/
theorem send_of_result (sound : wire.Sound compressors) (fits : wire.Fits provider request)
    (identity : ServiceIdentity) {result : Form β} {value : β} {data : Bytes}
    (blob : result.ofBlob data = .ok value)
    (succeeded : provider.handle request = .ofData request.id (some data)) :
    wire.send provider identity result request = .ok value := by
  rw [send, exchange_eq sound fits, succeeded]
  show Proxy.result identity request.id result (.ofData request.id (some data)) = _
  rw [Proxy.result, Proxy.check_ofData]
  exact blob

/-- What is refused is refused by every provider that publishes the same methods. -/
theorem send_of_refusal (sound : wire.Sound compressors) (fits : wire.Fits provider request)
    (identity : ServiceIdentity) (result : Form β) {fault : Fault}
    (refused : provider.refusal? request = some fault) {other : Provider}
    (alike : provider.Alike other) :
    wire.send other identity result request
      = .error (.callFailed identity.name request.id fault.message) := by
  have told := Provider.handle_of_refusal? refused
  have same : other.handle request = provider.handle request := by
    rw [told, Provider.handle_of_refusal?
      ((Provider.refusal?_eq_of_alike alike request).trans refused)]
  have fitsToo : wire.Fits other request := ⟨fits.there, same ▸ fits.back⟩
  exact send_of_failure sound fitsToo identity result (same.trans told)

/-- A failure of a method is what the caller gets, with its wording. -/
theorem send_of_error (sound : wire.Sound compressors) (fits : wire.Fits provider request)
    (identity : ServiceIdentity) (result : Form β) {reason : String}
    (failed : provider.handle request = .ofFailure request.id ("Invocation failed: " ++ reason)) :
    (∀ value, wire.send provider identity result request ≠ .ok value)
      ∧ ∀ other, wire.send provider identity result request
          = .error (.callFailed identity.name request.id ("Invocation failed: " ++ other))
        ↔ reason = other := by
  rw [send_of_failure sound fits identity result failed]
  refine ⟨fun value same => ?_, fun other => ⟨fun same => ?_, fun same => same ▸ rfl⟩⟩
  · cases same
  · -- the wording of a fault tells its reason
    injection same with same
    injection same with _ _ same
    exact (String.append_right_inj _).mp same

/-- Over a wire that the frames fit through, a published method gives the caller what it gives when
it is called, and its failure is told.  The types of the argument and the result are any whose forms
keep the values at hand.  The response repeats the request's id in any case, and a request for a
service, a method or parameter types that there are not is refused whatever the methods do. -/
theorem call_agrees (sound : wire.Sound compressors) (provider : Provider)
    (identity : ServiceIdentity) (result : Form β) :
    (∀ request, wire.Fits provider request →
      (∃ response, wire.exchange provider request = .ok response
        ∧ response.requestId = request.id)
      ∧ ∀ fault, provider.refusal? request = some fault → ∀ other, provider.Alike other →
          wire.send other identity result request
            = .error (.callFailed identity.name request.id fault.message))
    ∧ ∀ (service : Service) (name : String) (param : Form α) (wording : ε → String)
        (run : α → Except ε β),
      provider.services.get? identity.key = some service →
      service.methods.get? name = some (.ofFunction param result wording run) →
      ∀ (id : String) (argument : α) (request : Request), param.Keeps argument →
      Proxy.request identity id name param argument = .ok request →
      wire.Fits provider request →
      (∀ value, run argument = .ok value →
        result.Keeps value ∧ ∃ blob, result.toBlob value = .ok blob) →
      (∀ value, wire.call provider identity id name param result argument = .ok value
          ↔ run argument = .ok value)
        ∧ ∀ reason, wire.call provider identity id name param result argument
              = .error (.callFailed identity.name id ("Invocation failed: " ++ reason))
            ↔ ∃ failure, run argument = .error failure ∧ wording failure = reason := by
  refine ⟨fun request fits => ⟨⟨_, exchange_eq sound fits, by simp⟩, ?refused⟩, ?published⟩
  case refused =>
    exact fun fault refused other alike =>
      send_of_refusal sound fits identity result refused alike
  case published =>
    intro service name param wording run published named id argument request keeps made fits small
    obtain ⟨rfl, key, rfl, types, blob⟩ := Proxy.request_eq_ok made
    have handled := Provider.handle_of_method (key ▸ published) named types
      (keeps.ofBlob_eq blob)
    have called : wire.call provider identity request.id request.method param result argument
        = wire.send provider identity result request := by
      rw [call, made]
      rfl
    rw [called]
    cases outcome : run argument with
    | error failure =>
        rw [outcome] at handled
        obtain ⟨noValue, told⟩ := send_of_error sound fits identity result handled
        refine ⟨fun value => ⟨fun same => absurd same (noValue value), nofun⟩, fun reason => ?_⟩
        rw [told]
        constructor
        · exact fun same => ⟨failure, rfl, same⟩
        · rintro ⟨_, same, worded⟩
          rw [Except.error.inj same]
          exact worded
    | ok value =>
        rw [outcome] at handled
        obtain ⟨keepsToo, data, written⟩ := small value outcome
        dsimp only at handled
        rw [written] at handled
        rw [send_of_result sound fits identity (keepsToo.ofBlob_eq written) handled]
        refine ⟨fun other => ⟨fun same => ?_, fun same => ?_⟩, fun reason => ⟨nofun, ?_⟩⟩
        · rw [Except.ok.inj same]
        · rw [Except.ok.inj same]
        · rintro ⟨_, same, -⟩
          exact nomatch same

/-- Shares of a whole. -/
structure Division where
  whole : UInt8
  parts : UInt8
  deriving DecidableEq

/-- A division travels as its two numbers. -/
def Division.form : Form Division :=
  .record (Shape.pair (.plain .u8) (.plain .u8)).form "math::Division"
    (fun division => (division.whole, division.parts)) fun pair => ⟨pair.1, pair.2⟩

/-- A method that takes a record and refuses to divide by nothing, called over a wire whose client has
failed to encode a message before. -/
theorem call_agrees_divide :
    let failed : Message := ⟨9, 0, 1, .request ⟨"0", "", "", [], [], "", ""⟩⟩
    let client : Party := ⟨Catalogue.codecs, 300, [(failed, [])]⟩
    let wire : Wire := ⟨client, ⟨Catalogue.codecs, 200, []⟩, 1, 0, 7⟩
    let run (division : Division) : Except Unit UInt8 :=
      if division.parts = 0 then .error () else .ok (division.whole / division.parts)
    let divide := Method.ofFunction Division.form Scalar.u8.form (fun _ => "no parts") run
    let provider := Provider.empty.publish (.ofMethods "Math" [("divide", divide)]) "" ""
    wire.Sound builtInCompressor ∧ (∀ division, Division.form.Keeps division)
      ∧ wire.call provider ⟨"Math", "", ""⟩ "1" "divide" Division.form Scalar.u8.form ⟨6, 2⟩
        = .ok (3 : UInt8)
      ∧ wire.call provider ⟨"Math", "", ""⟩ "2" "divide" Division.form Scalar.u8.form ⟨6, 0⟩
        = .error (.callFailed "Math" "2" "Invocation failed: no parts") := by
  intro failed client wire run divide provider
  have sound : wire.Sound builtInCompressor := ⟨holds_codecs, holds_codecs, lossless_builtIn⟩
  have agrees := (call_agrees sound provider ⟨"Math", "", ""⟩ Scalar.u8.form).2
    (.ofMethods "Math" [("divide", divide)]) "divide" Division.form (fun _ => "no parts") run rfl rfl
  have keeps (division : Division) : Division.form.Keeps division :=
    Form.keeps_record
      (Parameter.keeps_form (Shape.pair (.plain .u8) (.plain .u8)).parameter _ ⟨trivial, trivial⟩) rfl
  have small (division : Division) (value : UInt8) (_ : run division = .ok value) :
      Scalar.u8.form.Keeps value ∧ ∃ blob, Scalar.u8.form.toBlob value = .ok blob :=
    ⟨Parameter.keeps_form (.plain .u8) _ trivial, _, rfl⟩
  have two : wire.Fits provider ⟨"1", "Math", "divide", ["math::Division"], [6, 2], "", ""⟩ := by
    refine ⟨⟨_, rfl, by decide⟩, ?_⟩
    rw [show provider.handle _ = .ofData "1" (some [3]) from rfl]
    exact ⟨_, rfl, by decide⟩
  have zero : wire.Fits provider ⟨"2", "Math", "divide", ["math::Division"], [6, 0], "", ""⟩ := by
    refine ⟨⟨_, rfl, by decide⟩, ?_⟩
    rw [show provider.handle _ = .ofFailure "2" "Invocation failed: no parts" from rfl]
    exact ⟨_, rfl, by decide⟩
  exact ⟨sound, keeps, ((agrees "1" ⟨6, 2⟩ _ (keeps _) rfl two (small _)).1 _).mpr rfl,
    ((agrees "2" ⟨6, 0⟩ _ (keeps _) rfl zero (small _)).2 _).mpr ⟨(), rfl, rfl⟩⟩

end Wire

end RemoteCall
