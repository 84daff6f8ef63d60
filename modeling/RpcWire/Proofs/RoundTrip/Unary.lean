import RpcWire.Proofs.Client.Success
import RpcWire.Proofs.Client.Trailers
import RpcWire.Proofs.RoundTrip.Request
import RpcWire.Proofs.RoundTrip.Response

/-!
# Unary responses arrive as they were sent

What a server makes of a handler's single message is read by a client of the
same protocol as that message, with the headers and the trailers that the
protocol carries; a failure keeps its code, its message and its details
(`unary_response_arrives`). With Connect the message is the whole body, the
failure a JSON body, and the trailers are headers with a stem; with gRPC and
gRPC-Web there are frames and a status.
-/

namespace RpcWire

variable {σ τ : Type}

open Envelope (Fits FitsPacked Sealed Undoes frame)
open FieldName (trailerStem)
open Server.Response (thresholdFor)

/-! ## What a handler leaves to the protocols -/

/-- Whether a name in lower case has a meaning to a protocol in a response. -/
def FieldName.isOwned (name : String) : Bool :=
  [contentType, contentEncoding].contains name ||
    ["connect-", "grpc-", trailerStem].any fun stem => Text.startsWith stem name.toList

/-- Nothing but the protocols uses the names that have a meaning to them. -/
def Metadata.LeavesOwned (m : Metadata) : Prop := ∀ name ∈ m.names, FieldName.isOwned name = false

instance (m : Metadata) : Decidable m.LeavesOwned :=
  inferInstanceAs (Decidable (∀ name ∈ m.names, _))

theorem FieldName.plain_of_not_isOwned {name : String} (h : isOwned name = false) :
    Text.stripStart? trailerStem name.toList = none := by
  cases hs : Text.stripStart? trailerStem name.toList with
  | none => rfl
  | some rest =>
    have starts : Text.startsWith trailerStem name.toList = true := by
      unfold Text.startsWith
      rw [Text.stripStart?_eq_some hs]
      exact List.isPrefixOf_iff_prefix.mpr (List.prefix_append _ _)
    rw [isOwned, Bool.or_eq_false_iff] at h
    simp [starts] at h

theorem Metadata.LeavesOwned.values {m : Metadata} (h : m.LeavesOwned) {key : String}
    (owned : FieldName.isOwned (Text.lower key) = true) : m.values key = [] := by
  refine values_of_not_mem_names ?_
  intro used
  rw [h _ used] at owned
  cases owned

theorem Metadata.LeavesOwned.leavesStatus {m : Metadata} (h : m.LeavesOwned) : m.LeavesStatus := by
  intro name hname
  have owned : ∀ name ∈ [FieldName.grpcStatus, FieldName.grpcMessage, FieldName.grpcStatusRecord],
      FieldName.isOwned (Text.lower name) = true := by decide
  exact h.values (owned name hname)

/-- What of the values of a header arrives at a unary call. -/
def Family.carriedHeaders (f : Family) (headers : Metadata) (key : String) : List Bytes :=
  match f with
  | .connect => (headers.texts key).map Utf8.encode
  | .grpc | .grpcWeb => headers.values key

/-- What the wire can hold of a response to a unary call: the handler leaves the names of the
protocols to them, and lengths fit their fields. -/
structure Server.Response.Deliverable (r : Response) (request : Request)
    (compression : Compression) : Prop where
  headers : r.headers.LeavesOwned
  trailers : r.trailers.LeavesOwned
  messages : request.protocol ≠ .connect →
    ∀ m ∈ r.messages, FitsPacked (thresholdFor request compression) m
  last : ∀ f ∈ r.lastFrame? request.protocol, Fits f.2
  record : request.protocol ≠ .connect → Completion.RecordFits r.failure

/-! ## What both sides know -/

/-- Putting a message into its envelope changes no headers. -/
theorem Grpc.headers_packBody {c : ClientConfig σ} {r made : Http.Request}
    (h : packBody c r = .ok made) : made.headers = r.headers := by
  unfold packBody at h
  cases hp : packMessage c r.body with
  | error cause =>
    rw [hp] at h
    cases h
  | ok packed =>
    rw [hp] at h
    cases h
    rfl

/-- A client and a server that understand each other in a unary call: what the request accepts is
what the client's own request would, the names that the client knows can stand in a list, and it
undoes what the server compresses under such a name. -/
structure UnderstandsUnary (c : ClientConfig σ) (callee : Method) (o : CallOptions)
    (request : Server.Request) (compression : Server.Compression) : Prop where
  protocol : request.protocol = c.family.protocol false
  codec : request.codec = c.encoding.name
  accepts : ∃ body made, ((protocolUnary c).request () { c.baseRequest callee o with body }).1 =
    .ok made ∧ request.headers.text? request.protocol.acceptField =
      made.headers.text? request.protocol.acceptField
  listed : ∀ n ∈ c.pools.names, Registry.IsListed n
  undone : compression.pools.UndoneBy c.pools

namespace UnderstandsUnary

variable {c : ClientConfig σ} {callee : Method} {o : CallOptions} {request : Server.Request}
  {compression : Server.Compression}

theorem protocol_eq (h : UnderstandsUnary c callee o request compression) {f : Family}
    (family : c.family = f) : request.protocol = f.protocol false := by
  rw [h.protocol, family]

/-- What a unary call accepts in Connect does not depend on how its message is sent. -/
theorem text?_acceptEncoding (h : UnderstandsUnary c callee o request compression)
    (connect : c.family = .connect) :
    request.headers.text? request.protocol.acceptField = none ∨
      request.headers.text? request.protocol.acceptField = c.pools.accept? := by
  obtain ⟨body, made, sent, same⟩ := h.accepts
  have hp : request.protocol = .connect := h.protocol_eq connect
  have sent : Connect.unaryRequest c { c.baseRequest callee o with body } = .ok made := by
    unfold protocolUnary at sent
    rw [connect] at sent
    exact sent
  have own : made.headers.values FieldName.acceptEncoding =
      (Connect.readied c { c.baseRequest callee o with body }).headers.values
        FieldName.acceptEncoding := by
    rw [Connect.unaryRequest_eq] at sent
    cases hc : Connect.compress body c.compression with
    | error cause =>
      rw [hc] at sent
      cases sent
    | ok packed =>
      rw [hc] at sent
      rw [← Except.ok.inj sent]
      dsimp only
      split
      · unfold Connect.toGet
        rw [Metadata.values_erase, if_neg (by decide), Metadata.values_erase, if_neg (by decide)]
      · exact Metadata.values_setIf_of_ne (by decide) _
  rw [same, hp]
  show made.headers.text? FieldName.acceptEncoding = _ ∨
    made.headers.text? FieldName.acceptEncoding = _
  rw [Metadata.text?_eq_of_values own]
  refine Metadata.text?_setIf_cases (by decide) ?_ _
  rw [Connect.values_prepareHeaders_of_ne (by decide) (by decide) (by decide)]
  exact o.values_ownHeaders (by decide)

/-- Outside Connect a unary call is a stream of one message. -/
theorem stream (h : UnderstandsUnary c callee o request compression) (other : c.family ≠ .connect) :
    Understands c callee o request compression where
  protocol := by
    rw [h.protocol]
    cases hf : c.family with
    | connect => exact absurd hf other
    | grpc => rfl
    | grpcWeb => rfl
  codec := h.codec
  accepts := by
    obtain ⟨body, made, sent, same⟩ := h.accepts
    have own : made.headers = (openingRequest c (c.baseRequest callee o)).headers := by
      unfold protocolUnary at sent
      unfold openingRequest
      cases hf : c.family with
      | connect => exact absurd hf other
      | grpc =>
        rw [hf] at sent
        have packed : Grpc.packBody c (Grpc.prepare c _) = .ok made := sent
        exact (Grpc.headers_packBody packed).trans rfl
      | grpcWeb =>
        rw [hf] at sent
        have packed : Grpc.packBody c (Grpc.prepareWeb c _) = .ok made := sent
        exact (Grpc.headers_packBody packed).trans rfl
    rw [same, own]
  listed := h.listed
  undone := h.undone

end UnderstandsUnary

/-! ## Connect -/

namespace Connect

/-- The headers of a unary response: its media type, the coding of its body, the handler's headers,
and the handler's trailers after the stem. -/
structure Carrying (r : Server.Response) (type : String) (coding : Option String)
    (sent : Metadata) : Prop where
  type : sent.values FieldName.contentType = [Utf8.encode type]
  coding : sent.values FieldName.contentEncoding = coding.toList.map Utf8.encode
  headers : ∀ key, FieldName.isOwned (Text.lower key) = false →
    sent.values key = r.headers.values key
  trailers : ∀ key, isFieldName (trailerStem ++ key) = true →
    sent.values (trailerStem ++ key) = (r.trailers.texts key).map Utf8.encode

theorem isOwned_stem (key : String) :
    FieldName.isOwned (Text.lower (trailerStem ++ key)) = true := by
  cases h : FieldName.isOwned (Text.lower (trailerStem ++ key)) with
  | true => rfl
  | false =>
    have plain := FieldName.plain_of_not_isOwned h
    rw [lower_stem, stripStart?_stem] at plain
    cases plain

theorem plain_contentType :
    Text.stripStart? trailerStem (Text.lower FieldName.contentType).toList = none := by decide

theorem plain_contentEncoding :
    Text.stripStart? trailerStem (Text.lower FieldName.contentEncoding).toList = none := by decide

/-- A field of a body is none of those that carry a trailer. -/
theorem lower_ne_stem {name : String}
    (plain : Text.stripStart? trailerStem (Text.lower name).toList = none) (key : String) :
    Text.lower name ≠ Text.lower (trailerStem ++ key) := by
  intro same
  rw [same, lower_stem, stripStart?_stem] at plain
  cases plain

/-- The trailers of a Connect response go among its headers, under the stem. -/
theorem carrying_embedTrailers {r : Server.Response} (leaves : r.headers.LeavesOwned)
    {type : String}
    (visible : IsVisible type) : Carrying r type none
      (Server.Response.embedTrailers (r.headers.set FieldName.contentType type) r.trailers) where
  type := by
    rw [Server.Response.values_embedTrailers _ _ plain_contentType,
      Metadata.values_set (by decide) (all_isFieldByte visible), if_pos rfl]
  coding := by
    rw [Server.Response.values_embedTrailers _ _ plain_contentEncoding,
      Metadata.values_set_of_ne (by decide)]
    exact leaves.values (by decide)
  headers key free := by
    rw [Server.Response.values_embedTrailers _ _ (FieldName.plain_of_not_isOwned free),
      Metadata.values_set_of_ne (lower_ne (by decide) free)]
  trailers key fits := by
    rw [Server.Response.values_embedTrailers_stem _ _ fits,
      Metadata.values_set_of_ne (lower_ne_stem plain_contentType key),
      leaves.values (isOwned_stem key), List.nil_append]

namespace Carrying

variable {r : Server.Response} {type : String} {coding : Option String} {sent : Metadata}

theorem setType (h : Carrying r type coding sent) {other : String} (visible : IsVisible other) :
    Carrying r other coding (sent.set FieldName.contentType other) where
  type := by rw [Metadata.values_set (by decide) (all_isFieldByte visible), if_pos rfl]
  coding := by
    rw [Metadata.values_set_of_ne (by decide)]
    exact h.coding
  headers key free := by
    rw [Metadata.values_set_of_ne (lower_ne (by decide) free)]
    exact h.headers key free
  trailers key fits := by
    rw [Metadata.values_set_of_ne (lower_ne_stem plain_contentType key)]
    exact h.trailers key fits

theorem setCoding (h : Carrying r type coding sent) {name : String} (visible : IsVisible name) :
    Carrying r type (some name) (sent.set FieldName.contentEncoding name) where
  type := by
    rw [Metadata.values_set_of_ne (by decide)]
    exact h.type
  coding := by
    rw [Metadata.values_set (by decide) (all_isFieldByte visible), if_pos rfl]
    rfl
  headers key free := by
    rw [Metadata.values_set_of_ne (lower_ne (by decide) free)]
    exact h.headers key free
  trailers key fits := by
    rw [Metadata.values_set_of_ne (lower_ne_stem plain_contentEncoding key)]
    exact h.trailers key fits

/-! ### What the client sees -/

theorem text?_type (h : Carrying r type coding sent) (visible : IsVisible type) :
    (splitTrailers sent .empty).1.text? FieldName.contentType = some type := by
  have only : (splitTrailers sent .empty).1.values FieldName.contentType = [Utf8.encode type] := by
    rw [values_splitTrailers_fst _ _ plain_contentType, Metadata.texts, h.type]
    simp [visible]
  exact Metadata.text?_of_values visible only

theorem text?_coding (h : Carrying r type coding sent) (visible : ∀ n ∈ coding, IsVisible n) :
    (splitTrailers sent .empty).1.text? FieldName.contentEncoding = coding := by
  refine Metadata.text?_of_values_toList visible ?_
  rw [values_splitTrailers_fst _ _ plain_contentEncoding, Metadata.texts, h.coding]
  cases coding with
  | none => rfl
  | some name => simp [visible name rfl]

/-- The client finds the headers of the handler where they were. -/
theorem headers_suffix (h : Carrying r type coding sent) (leaves : r.headers.LeavesOwned)
    (key : String) :
    Family.connect.carriedHeaders r.headers key <:+ (splitTrailers sent .empty).1.values key := by
  show (r.headers.texts key).map Utf8.encode <:+ _
  cases owned : FieldName.isOwned (Text.lower key) with
  | true =>
    rw [Metadata.texts, leaves.values owned]
    exact List.nil_suffix
  | false =>
    refine ⟨[], ?_⟩
    rw [values_splitTrailers_fst _ _ (FieldName.plain_of_not_isOwned owned), Metadata.texts,
      Metadata.texts, h.headers key owned, List.nil_append]

/-- It finds the trailers too, for every name that still is one with the stem before it. -/
theorem trailers_suffix (h : Carrying r type coding sent) {key : String}
    (fits : isFieldName (trailerStem ++ key) = true) :
    Family.connect.carriedValues r.trailers key <:+
      (splitTrailers sent .empty).2.values key := by
  show (r.trailers.texts key).map Utf8.encode <:+ _
  by_cases used : Text.lower key ∈ r.trailers.names
  · have named : key ≠ "" := by
      rintro rfl
      exact absurd (Metadata.legal_of_mem_names used).1 (by decide)
    have hk := isFieldName_of_stem named fits
    refine ⟨[], ?_⟩
    rw [values_splitTrailers_snd _ _ hk, Metadata.values_empty, List.nil_append, List.nil_append,
      Metadata.texts_of_values (fun _ => Metadata.isVisible_of_mem_texts) (h.trailers key fits)]
  · rw [Metadata.texts, Metadata.values_of_not_mem_names used]
    exact List.nil_suffix

end Carrying

variable {c : ClientConfig σ} {callee : Method} {o : CallOptions} {request : Server.Request}
  {compression : Server.Compression} {r : Server.Response} {sent : Http.WireResponse}

/-- What a body means that can be expanded. -/
theorem outcome_of_expand (status : Nat) {headers : Metadata} (trailers : Metadata)
    {body plain : Bytes}
    (read : expand (c.pools.resolve? (headers.text? FieldName.contentEncoding)) body = .ok plain) :
    outcome c status headers trailers body =
      if status ≠ 200 then
        .error ((reportedFailure status plain).withMetadata (headers.merge trailers))
      else (Protocol.connect.checkType c.encoding headers).map fun _ => plain := by
  unfold outcome
  simp only [read, bind, Except.bind]
  split
  · rfl
  · cases Protocol.connect.checkType c.encoding headers <;> rfl

/-- How a message is sent: as it is, or under the name of a pool by which the client undoes it. -/
theorem encodeMessage_cases {r : Server.Response} {type : String} {headers : Metadata}
    {t : Option Threshold} (carrying : Carrying r type none headers) (message : Bytes)
    (pool : ∀ th ∈ t, IsVisible th.pool.name ∧
      Undoes (c.pools.resolve? (some th.pool.name)) (some th)) :
    ∃ coding sent body,
      Server.Response.encodeMessage message headers t = ⟨200, sent, body, .empty⟩ ∧
      Carrying r type coding sent ∧ (∀ n ∈ coding, IsVisible n) ∧
      expand (c.pools.resolve? coding) body = .ok message := by
  have plain : ∃ coding sent body,
      (⟨200, headers, message, .empty⟩ : Http.WireResponse) = ⟨200, sent, body, .empty⟩ ∧
      Carrying r type coding sent ∧ (∀ n ∈ coding, IsVisible n) ∧
      expand (c.pools.resolve? coding) body = .ok message := by
    refine ⟨none, headers, message, rfl, carrying, ?_, rfl⟩
    intro n hn
    cases hn
  unfold Server.Response.encodeMessage
  cases hs : t.bind fun t => t.select? message with
  | none => exact plain
  | some chosen =>
    obtain ⟨th, hth, -, rfl⟩ := Envelope.select?_eq_some_iff.mp hs
    obtain ⟨visible, undoes⟩ := pool th hth
    simp only
    cases hp : th.pool.compress message with
    | error reason => exact plain
    | ok packed =>
      obtain ⟨q, resolved, read⟩ := undoes th rfl
      refine ⟨some th.pool.name, _, packed, rfl, carrying.setCoding visible, ?_, ?_⟩
      · intro n hn
        cases hn
        exact visible
      · rw [resolved, expand]
        simp only [read message packed hp]
        rfl

/-- The response of a success holds the message and what the handler added. -/
theorem unaryResponse_of_message (connect : c.family = .connect)
    (understands : UnderstandsUnary c callee o request compression)
    (leaves : r.headers.LeavesOwned) (succeeded : r.failure = none) {message : Bytes}
    (one : r.messages = [message]) (encoded : r.encode request compression = .ok sent) :
    ∃ type coding, Carrying r type coding sent.headers ∧
      unaryResponse c sent.toResponse = ⟨some 200, (splitTrailers sent.headers .empty).1, message,
        (splitTrailers sent.headers .empty).2, none⟩ := by
  have hp : request.protocol = .connect := understands.protocol_eq connect
  have typed := Protocol.isVisible_contentType .connect c.encoding
  obtain ⟨coding, headers, body, written, carrying, visible, read⟩ :=
    encodeMessage_cases (carrying_embedTrailers leaves typed) message
      fun th (hth : thresholdFor request compression = some th) =>
        Server.Response.undoes_thresholdFor understands.listed understands.undone
          (understands.text?_acceptEncoding connect) hth
  have whole : sent = ⟨200, headers, body, .empty⟩ := by
    unfold Server.Response.encode at encoded
    simp only [hp, Server.Response.encodeUnary, succeeded, one, understands.codec] at encoded
    cases encoded
    exact written
  subst whole
  refine ⟨_, coding, carrying, ?_⟩
  have result : outcome c 200 (splitTrailers headers .empty).1 (splitTrailers headers .empty).2
      body = .ok message := by
    rw [outcome_of_expand 200 _ (by rw [carrying.text?_coding visible]; exact read),
      if_neg (by decide), checkType_ok (carrying.text?_type typed)]
    rfl
  unfold unaryResponse
  simp only [Http.WireResponse.toResponse, Http.Response.arrived, result]

/-- The response of a failure tells of it. -/
theorem unaryResponse_of_failure (connect : c.family = .connect)
    (understands : UnderstandsUnary c callee o request compression) (leaves : r.headers.LeavesOwned)
    {f : Failure} (failed : r.failure = some f)
    (encoded : r.encode request compression = .ok sent) :
    ∃ cause, (unaryResponse c sent.toResponse).cause = some cause ∧
      (unaryResponse c sent.toResponse).body = [] ∧
      Family.connect.Reports (some f) (some cause) := by
  have hp : request.protocol = .connect := understands.protocol_eq connect
  let headers := (Server.Response.embedTrailers (r.headers.set FieldName.contentType
    (Protocol.connect.contentType c.encoding.name)) r.trailers).set FieldName.contentType
      "application/json"
  have carrying : Carrying r "application/json" none headers :=
    (carrying_embedTrailers leaves (Protocol.isVisible_contentType .connect c.encoding)).setType
      (by decide)
  have whole : sent = ⟨f.code.httpStatus, headers, f.encodeJson, .empty⟩ := by
    unfold Server.Response.encode at encoded
    simp only [hp, Server.Response.encodeUnary, failed, understands.codec] at encoded
    cases encoded
    rfl
  subst whole
  -- no coding is named, so the body is read as it is
  have read : expand (c.pools.resolve? ((splitTrailers headers .empty).1.text?
      FieldName.contentEncoding)) f.encodeJson = .ok f.encodeJson := by
    rw [carrying.text?_coding fun _ hn => nomatch hn]
    rfl
  have result := outcome_of_expand f.code.httpStatus (splitTrailers headers .empty).2 read
  rw [if_pos f.code.httpStatus_ne_ok, reportedFailure, f.parseJson?_encodeJson] at result
  unfold unaryResponse
  simp only [Http.WireResponse.toResponse, Http.Response.arrived, result]
  refine ⟨_, rfl, trivial, ?_⟩
  exact Family.reports_map .connect (some f) _ _ _ (fun _ _ => rfl) fun d => ⟨d.typeName_bare, rfl⟩

end Connect

/-! ## gRPC and gRPC-Web -/

namespace Grpc

variable {c : ClientConfig σ} {callee : Method} {o : CallOptions} {request : Server.Request}
  {compression : Server.Compression} {r : Server.Response} {sent : Http.WireResponse}

/-- A response in the two protocols is announced by its headers, and the client undoes its frames.
-/
theorem announces_of_sent (other : c.family ≠ .connect)
    (understands : UnderstandsUnary c callee o request compression) {fs : List (UInt8 × Bytes)}
    (h : r.Sent request compression fs sent) :
    Announces c (thresholdFor request compression) sent.headers ∧
      Undoes (poolOf c sent.headers) (thresholdFor request compression) := by
  have stream := understands.stream other
  have announced : Announces c (thresholdFor request compression) sent.headers := by
    rcases h.rest with ⟨headers, -⟩ | ⟨-, -, headers, -⟩
    · rw [headers]
      exact stream.announces r
    · rw [headers]
      exact (stream.announces r).merge _
  refine ⟨announced, ?_⟩
  have undoes := stream.undoes announced
  rwa [StreamMemory.opened_grpc other] at undoes

/-- The headers of a handler are all there. -/
theorem headers_suffix (other : c.family ≠ .connect) (leaves : r.headers.LeavesOwned)
    (key : String) :
    c.family.carriedHeaders r.headers key <:+ (r.headersFor request compression).values key := by
  have all : c.family.carriedHeaders r.headers key = r.headers.values key := by
    cases hf : c.family with
    | connect => exact absurd hf other
    | grpc => rfl
    | grpcWeb => rfl
  rw [all]
  cases owned : FieldName.isOwned (Text.lower key) with
  | true =>
    rw [leaves.values owned]
    exact List.nil_suffix
  | false =>
    have coded : FieldName.isOwned (Text.lower request.protocol.encodingField) = true := by
      cases request.protocol <;> decide
    refine ⟨[], ?_⟩
    rw [Server.Response.values_headersFor (lower_ne (by decide) owned)
      (lower_ne coded owned), List.nil_append]

/-- How the one message of a success is sent. -/
theorem sent_of_message (hp : request.protocol ≠ .connect)
    (deliverable : r.Deliverable request compression) (succeeded : r.failure = none)
    {message : Bytes} (one : r.messages = [message])
    (encoded : r.encode request compression = .ok sent) :
    ∃ f, Sealed (thresholdFor request compression) message f ∧
      FitsPacked (thresholdFor request compression) message ∧
      r.Sent request compression [f] sent ∧ sent.status = 200 ∧
      sent.headers = r.headersFor request compression ∧
      (request.protocol = .grpc → sent.trailers = Server.Response.addStatus r.trailers none) := by
  have framed : request.protocol.isEnveloped = true := by
    cases h : request.protocol with
    | connect => exact absurd h hp
    | _ => rfl
  obtain ⟨fs, whole⟩ := Server.Response.sent_of_encode framed encoded
  have frames := whole.frames
  rw [one] at frames
  obtain ⟨f, _, sealed, nothing, rfl⟩ := List.forall₂_cons_left_iff.mp frames
  rw [List.forall₂_nil_left_iff] at nothing
  subst nothing
  refine ⟨f, sealed, deliverable.messages hp message (by rw [one]; exact List.mem_singleton_self _),
    whole, Server.Response.status_of_encode framed encoded, ?_⟩
  rcases whole.rest with ⟨headers, trailers⟩ | ⟨-, silent, -⟩
  · refine ⟨headers, ?_⟩
    intro grpc
    rw [trailers grpc, succeeded]
  · -- there is a message, so there is a body
    rw [one] at silent
    cases silent

theorem checkCompletion_of_failure {completion : Completion} {cause : Failure}
    (h : completion.failure? = some cause) : checkCompletion completion = .error cause := by
  unfold checkCompletion
  rw [h]

/-- A status of zero says that a call has succeeded. -/
theorem saysOk_of_text? {m : Metadata}
    (h : m.text? FieldName.grpcStatus = some (Server.Response.numberText none)) : m.SaysOk := by
  unfold Metadata.SaysOk
  rw [h]
  decide

theorem opens_of_sealed (p : Protocol) {pool : Option Pool} {t : Option Threshold}
    (undoes : Undoes pool t) {message : Bytes} {f : UInt8 × Bytes} (sealed : Sealed t message f)
    (fits : FitsPacked t message) : p.Opens pool (frame f.1 f.2) ⟨f.1, message⟩ := by
  have read := p.takeFrame_of_sealed undoes sealed fits []
  rw [List.append_nil] at read
  exact ⟨Envelope.isWhole_frame (sealed.fits fits) f.1, read⟩

theorem unaryResponse_of_message (grpc : c.family = .grpc)
    (understands : UnderstandsUnary c callee o request compression)
    (deliverable : r.Deliverable request compression) (succeeded : r.failure = none)
    {message : Bytes} (one : r.messages = [message])
    (encoded : r.encode request compression = .ok sent) :
    unaryResponse c sent.toResponse = ⟨some 200, r.headersFor request compression, message,
      Server.Response.addStatus r.trailers none, none⟩ := by
  have other : c.family ≠ .connect := by rw [grpc]; decide
  have hp : request.protocol = .grpc := understands.protocol_eq grpc
  obtain ⟨f, sealed, fits, whole, status, headers, trailers⟩ :=
    sent_of_message (by rw [hp]; decide) deliverable succeeded one encoded
  obtain ⟨announced, undoes⟩ := announces_of_sent other understands whole
  have body : sent.body = frame f.1 f.2 := by
    rw [whole.body, hp]
    simp [Server.Response.lastFrame?]
  have type : sent.headers.text? FieldName.contentType =
      some (Protocol.grpc.contentType c.encoding.name) := by
    rw [announced.type, grpc]
    rfl
  have shown := Completion.shows_addStatus deliverable.trailers.leavesStatus none
  have succeeds : Succeeds .grpc c sent.toResponse sent.toResponse.trailers := by
    refine ⟨by rw [← status]; rfl, Protocol.checkType_eq_ok_iff.mp (checkType_ok type), ?_⟩
    show sent.trailers.SaysOk
    rw [trailers hp]
    exact saysOk_of_text? shown.number
  have opens : Protocol.grpc.Opens (poolOf c sent.toResponse.headers) sent.toResponse.body
      ⟨f.1, message⟩ := by
    show Protocol.grpc.Opens (poolOf c sent.headers) sent.body _
    rw [body]
    exact opens_of_sealed .grpc undoes sealed fits
  rw [unaryResponse_of_opens rfl succeeds opens]
  show (⟨some sent.status, sent.headers, message, sent.trailers, none⟩ : Http.Response) = _
  rw [status, headers, trailers hp]

theorem unaryWebResponse_of_message (grpcWeb : c.family = .grpcWeb)
    (understands : UnderstandsUnary c callee o request compression)
    (deliverable : r.Deliverable request compression) (succeeded : r.failure = none)
    {message : Bytes} (one : r.messages = [message])
    (encoded : r.encode request compression = .ok sent) :
    unaryWebResponse c sent.toResponse = ⟨some 200, r.headersFor request compression, message,
      TrailerText.parse (TrailerText.encode (Server.Response.addStatus r.trailers none)),
      none⟩ := by
  have other : c.family ≠ .connect := by rw [grpcWeb]; decide
  have hp : request.protocol = .grpcWeb := understands.protocol_eq grpcWeb
  obtain ⟨f, sealed, fits, whole, status, headers, -⟩ :=
    sent_of_message (by rw [hp]; decide) deliverable succeeded one encoded
  obtain ⟨announced, undoes⟩ := announces_of_sent other understands whole
  have last : Fits (TrailerText.encode (Server.Response.addStatus r.trailers none)) := by
    have last := deliverable.last (Envelope.trailersFlag, _) (by rw [hp]; rfl)
    rwa [succeeded] at last
  have body : sent.body = frame f.1 f.2 ++ frame Envelope.trailersFlag
      (TrailerText.encode (Server.Response.addStatus r.trailers none)) := by
    rw [whole.body, hp, ← succeeded]
    simp [Server.Response.lastFrame?]
  have type : sent.headers.text? FieldName.contentType =
      some (Protocol.grpcWeb.contentType c.encoding.name) := by
    rw [announced.type, grpcWeb]
    rfl
  have succeeds : Succeeds .grpcWeb c sent.toResponse
      (TrailerText.parse (TrailerText.encode (Server.Response.addStatus r.trailers none))) := by
    refine ⟨by rw [← status]; rfl, Protocol.checkType_eq_ok_iff.mp (checkType_ok type), ?_⟩
    exact saysOk_of_text? (Completion.text?_status_parse_encode r.trailers none)
  have holds : WebBody.Holds (poolOf c sent.toResponse.headers) sent.toResponse.body message
      (TrailerText.parse (TrailerText.encode (Server.Response.addStatus r.trailers none))) := by
    have plain : Envelope.trailersFlag &&& Envelope.compressedFlag = 0 := by decide
    exact ⟨_, _, ⟨f.1, message⟩, ⟨Envelope.trailersFlag, _⟩, body.symm,
      opens_of_sealed .grpcWeb undoes sealed fits, (Envelope.goesOn sealed.flags).2, rfl,
      ⟨Envelope.isWhole_frame last _, Protocol.grpcWeb.takeFrame_frame last plain _⟩,
      isTrailers_last _, rfl⟩
  rw [unaryWebResponse_of_holds rfl succeeds holds]
  show (⟨some sent.status, sent.headers, message, _, none⟩ : Http.Response) = _
  rw [status, headers]

/-- The response of a failure tells of it, whether the status stands in the trailers or, without a
message, in the headers. -/
theorem unaryResponse_of_failure (grpc : c.family = .grpc)
    (understands : UnderstandsUnary c callee o request compression)
    (deliverable : r.Deliverable request compression) {f : Failure} (failed : r.failure = some f)
    (encoded : r.encode request compression = .ok sent) :
    ∃ cause, (unaryResponse c sent.toResponse).cause = some cause ∧
      (unaryResponse c sent.toResponse).body = [] ∧ Family.grpc.Reports (some f) (some cause) := by
  have other : c.family ≠ .connect := by rw [grpc]; decide
  have hp : request.protocol = .grpc := understands.protocol_eq grpc
  have framed : request.protocol.isEnveloped = true := by rw [hp]; rfl
  obtain ⟨fs, whole⟩ := Server.Response.sent_of_encode framed encoded
  have status := Server.Response.status_of_encode framed encoded
  obtain ⟨announced, -⟩ := announces_of_sent other understands whole
  have type : sent.headers.text? FieldName.contentType =
      some (Protocol.grpc.contentType c.encoding.name) := by
    rw [announced.type, grpc]
    rfl
  have shown : Completion.Shows
      (if !(sent.body != []) && sent.trailers.isEmpty then sent.headers else sent.trailers)
      (some f) (Server.Response.messageText? (some f)) := by
    have added := Completion.shows_addStatus deliverable.trailers.leavesStatus (some f)
    rcases whole.rest with ⟨-, trailers⟩ | ⟨-, silent, headers, none⟩
    · rw [trailers hp, failed, Metadata.isEmpty_of_text? added.number, Bool.and_false]
      exact added
    · -- without a message there is no body, and the headers show the status
      have body : sent.body = [] := by
        have frames := whole.frames
        rw [silent, List.forall₂_nil_left_iff] at frames
        rw [whole.body, hp, frames]
        rfl
      rw [body, none, headers, failed]
      exact added.merge (Server.Response.leavesStatus_headersFor deliverable.headers.leavesStatus)
  have reported : (Completion.parse sent.toResponse.headers (sent.toResponse.body != [])
      sent.toResponse.trailers).failure? = some ⟨f.code,
        ((Server.Response.messageText? (some f)).map Percent.decode).filter (· ≠ ""),
        f.details.map Detail.qualified, sent.headers.merge sent.trailers, none⟩ :=
    Completion.failure?_parse
      (by rw [← failed]; exact deliverable.record (by rw [hp]; decide)) shown
  have head : checkHead .grpc c.encoding 200 sent.toResponse.headers = .ok () :=
    checkHead_eq_ok_iff.mpr ⟨rfl, Protocol.checkType_eq_ok_iff.mp (checkType_ok type)⟩
  have answer : unaryResponse c sent.toResponse = conclude sent.toResponse
      (outcome c 200 sent.toResponse) :=
    readResponse_of_status rfl (by rw [← status]; rfl)
  rw [answer, outcome, head, checkCompletion_of_failure reported]
  exact ⟨_, rfl, rfl, Family.reports_grpc (some f) _⟩

end Grpc

/-! ## All protocols -/

variable {c : ClientConfig σ} {callee : Method} {o : CallOptions} {request : Server.Request}
  {compression : Server.Compression} {r : Server.Response} {sent : Http.WireResponse}

/-- A unary response arrives as it was sent, whatever of it is compressed. The client reads a single
message as it is, and among the headers and the trailers those of the handler's values that the
protocol carries, after any of the protocol's own; in Connect the name of a trailer has to be one
with the stem in front. Of a failure, whatever messages came before it, Connect and gRPC read the
code, the details and what the protocol carries of the message. -/
theorem unary_response_arrives (understands : UnderstandsUnary c callee o request compression)
    (deliverable : r.Deliverable request compression)
    (encoded : r.encode request compression = .ok sent) (own : τ) :
    (∀ message, r.failure = none → r.messages = [message] →
      ∃ got, ((protocolUnary c).response own sent.toResponse).1 = got ∧
        got.cause = none ∧ got.body = message ∧
        (∀ key, c.family.carriedHeaders r.headers key <:+ got.headers.values key) ∧
        ∀ key, (c.family = .connect → isFieldName (trailerStem ++ key) = true) →
          c.family.carriedValues r.trailers key <:+ got.trailers.values key) ∧
    ∀ f, r.failure = some f → c.family ≠ .grpcWeb →
      ∃ got cause, ((protocolUnary c).response own sent.toResponse).1 = got ∧
        got.cause = some cause ∧ got.body = [] ∧ c.family.Reports (some f) (some cause) := by
  unfold protocolUnary
  cases hf : c.family with
  | connect =>
    constructor
    · intro message succeeded one
      obtain ⟨type, coding, carrying, answer⟩ :=
        Connect.unaryResponse_of_message hf understands deliverable.headers succeeded one encoded
      refine ⟨_, answer, rfl, rfl, carrying.headers_suffix deliverable.headers, ?_⟩
      intro key fits
      exact carrying.trailers_suffix (fits rfl)
    · intro f failed _
      obtain ⟨cause, told, empty, reports⟩ :=
        Connect.unaryResponse_of_failure hf understands deliverable.headers failed encoded
      exact ⟨_, cause, rfl, told, empty, reports⟩
  | grpc =>
    constructor
    · intro message succeeded one
      refine ⟨_, Grpc.unaryResponse_of_message hf understands deliverable succeeded one encoded,
        rfl, rfl, ?_, ?_⟩
      · rw [← hf]
        exact Grpc.headers_suffix (by rw [hf]; decide) deliverable.headers
      · intro key _
        exact Server.Response.values_suffix_addStatus deliverable.trailers.leavesStatus none key
    · intro f failed _
      obtain ⟨cause, told, empty, reports⟩ :=
        Grpc.unaryResponse_of_failure hf understands deliverable failed encoded
      exact ⟨_, cause, rfl, told, empty, reports⟩
  | grpcWeb =>
    constructor
    · intro message succeeded one
      refine ⟨_, Grpc.unaryWebResponse_of_message hf understands deliverable succeeded one encoded,
        rfl, rfl, ?_, ?_⟩
      · rw [← hf]
        exact Grpc.headers_suffix (by rw [hf]; decide) deliverable.headers
      · intro key _
        exact carriedValues_parse_encode deliverable.trailers.leavesStatus none key
    · intro f _ other
      exact absurd rfl other

/-! ## A compressed message with trailers -/

/-- A Connect client that knows the one pool. -/
def flippingUnary : ClientConfig Unit := { ClientConfig.new "http://h" with pools := flipping }

/-- The client's unary call as the server reads it. -/
def unaryCall : Server.Request :=
  { flippingCall with
    protocol := .connect
    contentType := "application/proto"
    headers := .ofTexts [(FieldName.acceptEncoding, "flip")] }

/-- A message with a header and a trailer. -/
def markedMessage : Server.Response where
  messages := [[1, 2, 3]]
  failure := none
  headers := .ofTexts [("x-id", "7")]
  trailers := .ofTexts [("x-spent", "1")]

theorem understands_unaryCall :
    UnderstandsUnary flippingUnary safeCallee .empty unaryCall ⟨flipping, some 2⟩ where
  protocol := rfl
  codec := rfl
  accepts := by
    have made : (((protocolUnary flippingUnary).request ()
        { flippingUnary.baseRequest safeCallee .empty with body := [] }).1.toOption.map fun r =>
          r.headers.text? FieldName.acceptEncoding) = some (some "flip") := by decide +kernel
    obtain ⟨r, sent, accept⟩ := ok_of_toOption made
    exact ⟨[], r, sent, accept.symm⟩
  listed := flipping_listed
  undone := flipping_undone

theorem deliverable_markedMessage : markedMessage.Deliverable unaryCall ⟨flipping, some 2⟩ where
  headers := by decide +kernel
  trailers := by decide +kernel
  messages other := absurd rfl other
  last _ hf := nomatch hf
  record other := absurd rfl other

theorem unary_response_arrives_flipped :
    ∃ sent got, markedMessage.encode unaryCall ⟨flipping, some 2⟩ = .ok sent ∧
      sent.body = [3, 2, 1] ∧
      ((protocolUnary flippingUnary).response () sent.toResponse).1 = got ∧ got.cause = none ∧
      got.body = [1, 2, 3] ∧ [Utf8.encode "7"] <:+ got.headers.values "x-id" ∧
      [Utf8.encode "1"] <:+ got.trailers.values "x-spent" := by
  have flipped : (markedMessage.encode unaryCall ⟨flipping, some 2⟩).toOption.map
      Http.WireResponse.body = some [3, 2, 1] := by decide +kernel
  have header : Family.connect.carriedHeaders markedMessage.headers "x-id" = [Utf8.encode "7"] := by
    decide +kernel
  have trailer : Family.connect.carriedValues markedMessage.trailers "x-spent" =
      [Utf8.encode "1"] := by decide +kernel
  obtain ⟨sent, encoded, packed⟩ := ok_of_toOption flipped
  obtain ⟨success, -⟩ := unary_response_arrives understands_unaryCall deliverable_markedMessage
    encoded ()
  obtain ⟨got, answer, clean, body, headers, trailers⟩ := success [1, 2, 3] rfl rfl
  refine ⟨sent, got, encoded, packed, answer, clean, body, ?_, ?_⟩
  · rw [← header]
    exact headers "x-id"
  · rw [← trailer]
    exact trailers "x-spent" fun _ => by decide +kernel

/-! ## A trailer with a blank at its end -/

/-- A message with a trailer that ends in a space. -/
def spacedTrailer : Server.Response where
  messages := [[1]]
  failure := none
  headers := .empty
  trailers := .ofTexts [("x-note", "a ")]

/-- Of this trailer the client of gRPC-Web reads no space. -/
theorem trailer_without_space :
    UnderstandsUnary webClient safeCallee .empty webCall ⟨.empty, none⟩ ∧
    spacedTrailer.Deliverable webCall ⟨.empty, none⟩ ∧
    Utf8.encode "a " ∈ spacedTrailer.trailers.values "x-note" ∧
    ((spacedTrailer.encode webCall ⟨.empty, none⟩).toOption.map fun sent =>
      ((protocolUnary webClient).response () sent.toResponse).1.trailers.values "x-note") =
        some [Utf8.encode "a"] := by
  refine ⟨⟨rfl, rfl, ?_, ?_, ?_⟩, ⟨?_, ?_, ?_, ?_, ?_⟩, by decide +kernel, by decide +kernel⟩
  · have made : (((protocolUnary webClient).request ()
        { webClient.baseRequest safeCallee .empty with body := [] }).1.toOption.map fun r =>
          r.headers.text? FieldName.grpcAcceptEncoding) = some none := by decide +kernel
    obtain ⟨r, sent, accept⟩ := ok_of_toOption made
    exact ⟨[], r, sent, accept.symm⟩
  · intro n hn
    have only : n = "gzip" := List.mem_singleton.mp hn
    rw [only]
    exact ⟨by decide, by decide, by decide⟩
  · intro name p q hp
    cases hp
  · decide +kernel
  · decide +kernel
  · intro _ m hm
    rw [List.mem_singleton.mp hm]
    have short : ([1] : Bytes).length < 2 ^ 32 := by decide
    exact ⟨short, fun th hth => nomatch hth⟩
  · intro f hf
    cases hf
    show List.length _ < 2 ^ 32
    decide +kernel
  · intro _ g hg
    cases hg

end RpcWire
