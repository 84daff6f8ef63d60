import RpcWire.Proofs.Client.OneMessage
import RpcWire.Proofs.RoundTrip.Failure

/-!
# gRPC and gRPC-Web tell of the same failure

A handler that fails gives the same status in both protocols, once in header
fields and once as lines of text. Where nothing is compressed, clients of the two
read the same code and the same details, and the same message but for the spaces
at its ends, which gRPC-Web drops (`failure_agrees`).
-/

namespace RpcWire

variable {σ : Type}

open Envelope (Carries Fits FitsPacked Sealed Undoes frame Splitter)
open Server.Response (addStatus messageText? thresholdFor Sent)

/-! ## What is sent -/

/-- A call of a client that is answered without compression. -/
structure AnsweredPlain (c : ClientConfig σ) (request : Server.Request)
    (compression : Server.Compression) : Prop where
  protocol : request.protocol = c.family.protocol true
  codec : request.codec = c.encoding.name
  plain : thresholdFor request compression = none

/-- A handler fails and leaves the fields of the status to the protocol, and the lengths fit their
frames. -/
structure Server.Response.IsFailure (r : Server.Response) (f : Failure) : Prop where
  failed : r.failure = some f
  headers : r.headers.LeavesStatus
  trailers : r.trailers.LeavesStatus
  messages : ∀ m ∈ r.messages, Fits m
  status : Fits (TrailerText.encode (addStatus r.trailers (some f)))

namespace Server.Response

theorem packAll_none (messages : List Bytes) :
    packAll messages none = .ok (messages.map (frame 0)).flatten := by
  refine packAll_eq_ok_iff.mpr ⟨messages.map (frame 0), ?_, rfl⟩
  rw [List.forall₂_map_right_iff, List.forall₂_same]
  exact fun _ _ => rfl

/-- Without compression every response can be encoded. -/
theorem exists_encode (r : Response) {request : Request} {compression : Compression}
    (plain : thresholdFor request compression = none) :
    ∃ sent, r.encode request compression = .ok sent := by
  unfold encode
  simp only [plain, packAll_none]
  cases request.protocol with
  | grpc =>
    show ∃ sent, ite _ _ _ = Except.ok sent
    split <;> exact ⟨_, rfl⟩
  | _ => exact ⟨_, rfl⟩

theorem sealed_none {messages : List Bytes} {fs : List (UInt8 × Bytes)}
    (h : List.Forall₂ (Sealed none) messages fs) : fs = messages.map fun m => (0, m) := by
  induction h with
  | nil => rfl
  | cons first _ ih =>
    rcases first with rfl | ⟨-, th, none, -⟩
    · rw [ih, List.map_cons]
    · cases none

end Server.Response

theorem fitsPacked_none {m : Bytes} (fits : Fits m) : FitsPacked none m := by
  refine ⟨fits, ?_⟩
  rintro th ⟨⟩

theorem undoes_none (pool : Option Pool) : Undoes pool none := by
  rintro th ⟨⟩

variable {c : ClientConfig σ} {request : Server.Request} {compression : Server.Compression}
  {r : Server.Response} {sent : Http.WireResponse} {f : Failure} {fs : List (UInt8 × Bytes)}

namespace AnsweredPlain

theorem enveloped (h : AnsweredPlain c request compression) (other : c.family ≠ .connect) :
    request.protocol.isEnveloped = true := by
  rw [h.protocol]
  cases hf : c.family with
  | connect => exact absurd hf other
  | grpc | grpcWeb => rfl

theorem announces (h : AnsweredPlain c request compression)
    (whole : r.Sent request compression fs sent) : Announces c none sent.headers := by
  have announced : Announces c none (r.headersFor request compression) := by
    refine ⟨?_, by rintro th ⟨⟩⟩
    rw [Server.Response.headersFor, h.plain, h.codec, h.protocol]
    exact Metadata.text?_set (by decide) (Protocol.isVisible_contentType _ _)
  rcases whole.rest with ⟨headers, -⟩ | ⟨-, -, headers, -⟩
  · rw [headers]
    exact announced
  · rw [headers]
    exact announced.merge _

/-- The client accepts the response. -/
theorem isAccepted (h : AnsweredPlain c request compression) {p : Protocol}
    (hp : c.family.protocol true = p) (other : c.family ≠ .connect)
    (encoded : r.encode request compression = .ok sent)
    (whole : r.Sent request compression fs sent) : Grpc.IsAccepted p c sent.toResponse where
  arrived := rfl
  status := congrArg some (Server.Response.status_of_encode (h.enveloped other) encoded)
  type := by
    have type := (h.announces whole).type
    rw [hp] at type
    exact Protocol.checkType_eq_ok_iff.mp (checkType_ok type)

end AnsweredPlain

/-! ## What is told -/

/-- What a client is told of a failure. -/
structure Family.Tells (family : Family) (f told : Failure) : Prop where
  code : told.code = f.code
  message : told.message = family.carriedMessage f.message
  details : told.details = Completion.detailsRead f

theorem Family.tells_grpc (f : Failure) (metadata : Metadata) :
    Family.grpc.Tells f ⟨f.code, ((messageText? (some f)).map Percent.decode).filter (· ≠ ""),
      Completion.detailsRead f, metadata, none⟩ := by
  refine ⟨rfl, ?_, rfl⟩
  show ((f.message.map Percent.encode).map Percent.decode).filter (· ≠ "") = _
  cases f.message with
  | none => rfl
  | some text =>
    rw [Option.map_some, Option.map_some, Percent.decode_encode]
    rfl

theorem Family.tells_grpcWeb (f : Failure) (metadata : Metadata) :
    Family.grpcWeb.Tells f ⟨f.code, (((messageText? (some f)).map TrailerText.trimmed).map
      Percent.decode).filter (· ≠ ""), Completion.detailsRead f, metadata, none⟩ := by
  refine ⟨rfl, ?_, rfl⟩
  show (((f.message.map Percent.encode).map TrailerText.trimmed).map Percent.decode).filter
    (· ≠ "") = _
  cases f.message with
  | none => rfl
  | some text =>
    rw [Option.map_some, Option.map_some, Option.map_some, TrailerText.trimmed,
      Percent.decode_trim_encode]
    rfl

/-- Two clients are told the same, but the second without the spaces at the ends of the message. -/
structure Failure.AgreesWith (told web : Failure) : Prop where
  code : web.code = told.code
  details : web.details = told.details
  message : web.message =
    (told.message.map fun m => String.ofList (Percent.trimSpaces m.toList)).filter (· ≠ "")

/-- The two tell the same but for blanks at the ends of the message. -/
theorem Family.Tells.agrees {f told web : Failure} (h : Family.grpc.Tells f told)
    (hweb : Family.grpcWeb.Tells f web) : told.AgreesWith web where
  code := hweb.code.trans h.code.symm
  details := hweb.details.trans h.details.symm
  message := by
    rw [hweb.message, h.message]
    show (f.message.map fun m => String.ofList (Percent.trimSpaces m.toList)).filter (· ≠ "") =
      ((f.message.filter (· ≠ "")).map fun m => String.ofList (Percent.trimSpaces m.toList)).filter
        (· ≠ "")
    cases f.message with
    | none => rfl
    | some text =>
      by_cases empty : text = "" <;>
        simp [empty, Option.filter, Percent.trimSpaces, Text.dropTrailing]

/-! ## gRPC -/

/-- Where the client looks, the status is shown: in the trailers or, without a message, in the
headers. -/
theorem shows_of_sent (hp : request.protocol = .grpc) (failure : r.IsFailure f)
    (whole : r.Sent request compression fs sent) {hasBody : Bool}
    (silent : r.messages = [] → hasBody = false) :
    Completion.Shows (if !hasBody && sent.trailers.isEmpty then sent.headers else sent.trailers)
      (some f) (messageText? (some f)) := by
  have added := Completion.shows_addStatus failure.trailers (some f)
  rcases whole.rest with ⟨-, trailers⟩ | ⟨-, nothing, headers, none⟩
  · rw [trailers hp, failure.failed, Metadata.isEmpty_of_text? added.number, Bool.and_false]
    exact added
  · rw [silent nothing, none, headers, failure.failed]
    exact added.merge (Server.Response.leavesStatus_headersFor failure.headers)

/-- What gRPC trailers tell of a failure. -/
theorem told_grpc (hp : request.protocol = .grpc) (failure : r.IsFailure f)
    (whole : r.Sent request compression fs sent) {hasBody : Bool}
    (silent : r.messages = [] → hasBody = false) :
    ∃ told, (Completion.parse sent.headers hasBody sent.trailers).failure? = some told ∧
      Family.grpc.Tells f told :=
  ⟨_, Completion.failure?_parse_of_shows (shows_of_sent hp failure whole silent),
    Family.tells_grpc f _⟩

/-- A unary call ends with the failure that the trailers tell. -/
theorem told_unary_grpc (family : c.family = .grpc) (answered : AnsweredPlain c request compression)
    (failure : r.IsFailure f) (encoded : r.encode request compression = .ok sent) :
    ∃ told, (Grpc.unaryResponse c sent.toResponse).cause = some told ∧
      Family.grpc.Tells f told := by
  have other : c.family ≠ .connect := by rw [family]; decide
  have hp : request.protocol = .grpc := by rw [answered.protocol, family]; rfl
  obtain ⟨fs, whole⟩ := Server.Response.sent_of_encode (answered.enveloped other) encoded
  have silent : r.messages = [] → (sent.toResponse.body != []) = false := by
    intro silent
    have frames := whole.frames
    rw [silent, List.forall₂_nil_left_iff] at frames
    show (sent.body != []) = false
    rw [whole.body, hp, frames]
    rfl
  obtain ⟨told, failed, tells⟩ := told_grpc hp failure whole silent
  have accepted := answered.isAccepted (p := .grpc) (by rw [family]; rfl) other encoded whole
  refine ⟨told, ?_, tells⟩
  rw [Grpc.unaryResponse_of_status accepted failed]
  rfl

/-! ## gRPC-Web -/

/-- What the trailer text of gRPC-Web tells of it. -/
theorem told_web (failure : r.IsFailure f) (headers : Metadata) (hasBody : Bool) :
    ∃ told, (Completion.parse headers hasBody
      (TrailerText.parse (TrailerText.encode (addStatus r.trailers (some f))))).failure? =
        some told ∧ Family.grpcWeb.Tells f told := by
  have shown := Completion.shows_parse_encode failure.trailers (some f)
  -- a status is there, so the headers are not asked for one
  have source : (if !hasBody && (TrailerText.parse (TrailerText.encode
      (addStatus r.trailers (some f)))).isEmpty then headers else
        TrailerText.parse (TrailerText.encode (addStatus r.trailers (some f)))) =
      TrailerText.parse (TrailerText.encode (addStatus r.trailers (some f))) := by
    rw [Metadata.isEmpty_of_text? shown.number, Bool.and_false]
    rfl
  rw [← source] at shown
  exact ⟨_, Completion.failure?_parse_of_shows shown, Family.tells_grpcWeb f _⟩

/-- The body holds the message, if there is one, and the status. -/
theorem reads_of_sent (hp : request.protocol = .grpcWeb)
    (plain : thresholdFor request compression = none) (failure : r.IsFailure f)
    (whole : r.Sent request compression fs sent) (single : r.messages.length ≤ 1)
    (pool : Option Pool) :
    Grpc.WebBody.Reads pool sent.body ⟨r.messages.head?,
      TrailerText.parse (TrailerText.encode (addStatus r.trailers (some f)))⟩ := by
  have last := Envelope.carries_frame failure.status
    (show Envelope.trailersFlag &&& Envelope.compressedFlag = 0 by decide) pool
  have ends : Grpc.IsLast (frame Envelope.trailersFlag
      (TrailerText.encode (addStatus r.trailers (some f)))) := by
    show Envelope.trailersFlag &&& Envelope.trailersFlag = Envelope.trailersFlag
    decide
  have frames := whole.frames
  rw [plain] at frames
  have body := whole.body
  rw [Server.Response.sealed_none frames, hp, Server.Response.lastFrame?, failure.failed] at body
  rw [body]
  cases messages : r.messages with
  | nil =>
    have alone := Grpc.WebBody.Reads.trailers last ends
    simpa using alone
  | cons m rest =>
    rw [messages, List.length_cons] at single
    obtain rfl : rest = [] := List.length_eq_zero_iff.mp (by omega)
    have fits : Fits m := failure.messages m (by rw [messages]; exact List.mem_singleton_self m)
    have first := Envelope.carries_frame fits
      (show (0 : UInt8) &&& Envelope.compressedFlag = 0 by decide) pool
    have goesOn : ¬ Grpc.IsLast (frame 0 m) := by
      show ¬ (0 : UInt8) &&& Envelope.trailersFlag = Envelope.trailersFlag
      decide
    have both := Grpc.WebBody.Reads.message first goesOn last ends
    simpa using both

theorem told_unary_web (family : c.family = .grpcWeb)
    (answered : AnsweredPlain c request compression) (failure : r.IsFailure f)
    (single : r.messages.length ≤ 1) (encoded : r.encode request compression = .ok sent) :
    ∃ told, (Grpc.unaryWebResponse c sent.toResponse).cause = some told ∧
      Family.grpcWeb.Tells f told := by
  have other : c.family ≠ .connect := by rw [family]; decide
  have hp : request.protocol = .grpcWeb := by rw [answered.protocol, family]; rfl
  obtain ⟨fs, whole⟩ := Server.Response.sent_of_encode (answered.enveloped other) encoded
  have accepted := answered.isAccepted (p := .grpcWeb) (by rw [family]; rfl) other encoded whole
  have reads := reads_of_sent hp answered.plain failure whole single
    (Grpc.poolOf c sent.toResponse.headers)
  cases head : r.messages.head? with
  | none =>
    rw [head] at reads
    obtain ⟨told, failed, tells⟩ := told_web failure sent.toResponse.headers false
    refine ⟨told, ?_, tells⟩
    rw [Grpc.unaryWebResponse_of_trailers accepted reads, failed]
    rfl
  | some m =>
    rw [head] at reads
    obtain ⟨told, failed, tells⟩ := told_web failure sent.toResponse.headers true
    refine ⟨told, ?_, tells⟩
    rw [Grpc.unaryWebResponse_of_status accepted reads failed]
    rfl

/-! ## Streams -/

theorem find?_isComplete {α : Type} (headers : Metadata) (messages : List α)
    (cause : Option Failure) (trailers : Metadata) (more : List (Event α)) :
    (Event.headers headers :: (messages.map .message ++ .complete cause trailers :: more)).find?
      Event.isComplete = some (.complete cause trailers) := by
  rw [List.find?_cons_of_neg (by simp [Event.isComplete]), List.find?_append]
  have none : (messages.map Event.message).find? Event.isComplete = none := by
    simp [Event.isComplete]
  rw [none]
  rfl

theorem fits_lastFrame (answered : AnsweredPlain c request compression)
    (other : c.family ≠ .connect) (failure : r.IsFailure f) {last : UInt8 × Bytes}
    (h : last ∈ r.lastFrame? request.protocol) : Fits last.2 := by
  rw [answered.protocol] at h
  cases family : c.family with
  | connect => exact absurd family other
  | grpc =>
    rw [family] at h
    cases h
  | grpcWeb =>
    rw [family] at h
    cases h
    rw [failure.failed]
    exact failure.status

/-- A stream shows the headers and the messages; then comes what is made of the end. -/
theorem produce_delivered (answered : AnsweredPlain c request compression)
    (other : c.family ≠ .connect) (failure : r.IsFailure f)
    (whole : r.Sent request compression fs sent) {chunks : List Bytes}
    (body : chunks.flatten = sent.body) :
    (protocolStream c).produce .fresh (delivered sent chunks) =
      .headers sent.headers :: (r.messages.map .message ++ (protocolStream c).produce
        ((StreamMemory.opened c sent.headers).afterMessages c r.messages)
        ((r.lastFrame? request.protocol).toList.map (fun g => .message (frame g.1 g.2)) ++
          [.complete none sent.trailers])) := by
  have frames := whole.frames
  rw [answered.plain] at frames
  have fits : ∀ m ∈ r.messages, FitsPacked none m := fun m hm =>
    fitsPacked_none (failure.messages m hm)
  have cut := Splitter.pushAll_frames (body.trans whole.body) (by
    intro g hg
    rcases List.mem_append.mp hg with hg | hg
    · exact Envelope.fits_of_sealed frames fits g hg
    · exact fits_lastFrame answered other failure (Option.mem_toList.mp hg))
  rw [delivered, cut, List.map_map, List.map_append, List.append_assoc]
  show (protocolEvent c .fresh (.headers sent.headers)).1 ::
    (protocolStream c).produce (protocolEvent c .fresh (.headers sent.headers)).2 _ = _
  rw [protocolEvent_headers (answered.announces whole).type]
  exact congrArg (Event.headers sent.headers :: ·)
    (produce_frames (undoes_none _) frames fits _)

theorem completeFrom_of_failure {m : Grpc.StreamState} {trailers : Metadata} {told : Failure}
    (failed : (Completion.parse m.headers m.seenMessage trailers).failure? = some told) :
    ∃ given, Grpc.completeFrom m trailers = .complete (some told) given := by
  unfold Grpc.completeFrom
  simp only [failed]
  exact ⟨_, rfl⟩

/-- A stream ends with the same failure, however the body was cut into chunks. -/
theorem told_stream_grpc (family : c.family = .grpc)
    (answered : AnsweredPlain c request compression)
    (failure : r.IsFailure f) (encoded : r.encode request compression = .ok sent)
    {chunks : List Bytes} (body : chunks.flatten = sent.body) :
    ∃ told given, ((protocolStream c).produce .fresh (delivered sent chunks)).find?
      Event.isComplete = some (.complete (some told) given) ∧ Family.grpc.Tells f told := by
  have other : c.family ≠ .connect := by rw [family]; decide
  have hp : request.protocol = .grpc := by rw [answered.protocol, family]; rfl
  obtain ⟨fs, whole⟩ := Server.Response.sent_of_encode (answered.enveloped other) encoded
  have silent : r.messages = [] → (!r.messages.isEmpty) = false := by
    intro silent
    rw [silent]
    rfl
  let m : StreamMemory := ⟨Grpc.poolOf c sent.headers, sent.headers, !r.messages.isEmpty⟩
  obtain ⟨told, failed, tells⟩ := told_grpc hp failure whole silent
  obtain ⟨given, ended⟩ := completeFrom_of_failure (m := m) failed
  refine ⟨told, given, ?_, tells⟩
  have last : (protocolStream c).produce m [.complete none sent.trailers] =
      [Grpc.completeFrom m sent.trailers] :=
    congrArg (· :: []) (protocolEvent_complete other m sent.trailers)
  rw [produce_delivered answered other failure whole body, hp, StreamMemory.opened_grpc other,
    StreamMemory.afterMessages_grpc other]
  show (Event.headers sent.headers :: (r.messages.map .message ++
    (protocolStream c).produce m [.complete none sent.trailers])).find? _ = _
  rw [last, ended]
  exact find?_isComplete _ _ _ _ _

theorem told_stream_web (family : c.family = .grpcWeb)
    (answered : AnsweredPlain c request compression) (failure : r.IsFailure f)
    (encoded : r.encode request compression = .ok sent) {chunks : List Bytes}
    (body : chunks.flatten = sent.body) :
    ∃ told given, ((protocolStream c).produce .fresh (delivered sent chunks)).find?
      Event.isComplete = some (.complete (some told) given) ∧ Family.grpcWeb.Tells f told := by
  have other : c.family ≠ .connect := by rw [family]; decide
  have hp : request.protocol = .grpcWeb := by rw [answered.protocol, family]; rfl
  obtain ⟨fs, whole⟩ := Server.Response.sent_of_encode (answered.enveloped other) encoded
  let m : StreamMemory := ⟨Grpc.poolOf c sent.headers, sent.headers, !r.messages.isEmpty⟩
  obtain ⟨told, failed, tells⟩ := told_web failure m.headers m.seenMessage
  obtain ⟨given, ended⟩ := completeFrom_of_failure (m := m) failed
  refine ⟨told, given, ?_, tells⟩
  rw [produce_delivered answered other failure whole body, hp, StreamMemory.opened_grpc other,
    StreamMemory.afterMessages_grpc other]
  show (Event.headers sent.headers :: (r.messages.map .message ++
    (protocolEvent c m (.message (frame Envelope.trailersFlag
      (TrailerText.encode (addStatus r.trailers r.failure))))).1 :: _)).find? _ = _
  rw [failure.failed, protocolEvent_trailers family failure.status m, ended]
  exact find?_isComplete _ _ _ _ _

/-! ## Both protocols -/

/-- Of every handler's failure that leaves the status to the protocol, the server makes a response
of gRPC and one of gRPC-Web, if neither is compressed. A unary call of either protocol, after at
most one message, and a stream, however its body is cut into chunks, are told of the failure, in
both protocols with the same code, the same details and, but for the spaces at its ends, the same
message. -/
theorem failure_agrees {τ : Type} {c : ClientConfig σ} {w : ClientConfig τ}
    {request webRequest : Server.Request} {compression webCompression : Server.Compression}
    (grpc : c.family = .grpc) (web : w.family = .grpcWeb)
    (answered : AnsweredPlain c request compression)
    (webAnswered : AnsweredPlain w webRequest webCompression) {r : Server.Response} {f : Failure}
    (failure : r.IsFailure f) :
    ∃ sent webSent, r.encode request compression = .ok sent ∧
      r.encode webRequest webCompression = .ok webSent ∧
      (r.messages.length ≤ 1 → ∀ {μ ν : Type} (m : μ) (n : ν), ∃ told webTold,
        ((protocolUnary c).response m sent.toResponse).1.cause = some told ∧
        ((protocolUnary w).response n webSent.toResponse).1.cause = some webTold ∧
        Family.grpc.Tells f told ∧ told.AgreesWith webTold) ∧
      ∀ chunks webChunks : List Bytes, chunks.flatten = sent.body →
        webChunks.flatten = webSent.body → ∃ told webTold given webGiven,
          ((protocolStream c).produce .fresh (delivered sent chunks)).find? Event.isComplete =
            some (.complete (some told) given) ∧
          ((protocolStream w).produce .fresh (delivered webSent webChunks)).find?
            Event.isComplete = some (.complete (some webTold) webGiven) ∧
          Family.grpc.Tells f told ∧ told.AgreesWith webTold := by
  obtain ⟨sent, encoded⟩ := r.exists_encode answered.plain
  obtain ⟨webSent, webEncoded⟩ := r.exists_encode webAnswered.plain
  refine ⟨sent, webSent, encoded, webEncoded, ?_, ?_⟩
  · intro single μ ν m n
    obtain ⟨told, read, tells⟩ := told_unary_grpc grpc answered failure encoded
    obtain ⟨webTold, webRead, webTells⟩ := told_unary_web web webAnswered failure single webEncoded
    refine ⟨told, webTold, ?_, ?_, tells, tells.agrees webTells⟩
    · simp only [protocolUnary, grpc]
      exact read
    · simp only [protocolUnary, web]
      exact webRead
  · intro chunks webChunks body webBody
    obtain ⟨told, given, read, tells⟩ := told_stream_grpc grpc answered failure encoded body
    obtain ⟨webTold, webGiven, webRead, webTells⟩ :=
      told_stream_web web webAnswered failure webEncoded webBody
    exact ⟨told, webTold, given, webGiven, read, webRead, tells, tells.agrees webTells⟩

/-! ## A message between spaces -/

/-- A failure after one message, with details and a message that begins with a space. -/
def spacedRefusal : Server.Response where
  messages := [[1]]
  failure := some ((Failure.new .notFound " 5%: é").withDetails [⟨"t/x", [7]⟩])
  headers := .ofTexts [("x-id", "1")]
  trailers := .ofTexts [("x-left", "2")]

theorem failure_agrees_spaced :
    ∃ sent webSent told webTold,
      spacedRefusal.encode flippingCall ⟨.empty, none⟩ = .ok sent ∧
      spacedRefusal.encode webCall ⟨.empty, none⟩ = .ok webSent ∧
      ((protocolUnary (clientOf .grpc)).response () sent.toResponse).1.cause = some told ∧
      ((protocolUnary (clientOf .grpcWeb)).response () webSent.toResponse).1.cause = some webTold ∧
      told.message = some " 5%: é" ∧ webTold.message = some "5%: é" ∧
      webTold.code = .notFound ∧ webTold.details = told.details := by
  have failure : spacedRefusal.IsFailure
      ((Failure.new .notFound " 5%: é").withDetails [⟨"t/x", [7]⟩]) := by
    refine ⟨rfl, by decide +kernel, by decide +kernel, ?_, ?_⟩
    · intro m hm
      rw [List.mem_singleton.mp hm]
      show List.length _ < 2 ^ 32
      decide
    · show List.length _ < 2 ^ 32
      decide +kernel
  obtain ⟨sent, webSent, encoded, webEncoded, unary, -⟩ := failure_agrees
    (c := clientOf .grpc) (w := clientOf .grpcWeb) rfl rfl
    (⟨rfl, rfl, rfl⟩ : AnsweredPlain (clientOf .grpc) flippingCall ⟨.empty, none⟩)
    (⟨rfl, rfl, rfl⟩ : AnsweredPlain (clientOf .grpcWeb) webCall ⟨.empty, none⟩) failure
  obtain ⟨told, webTold, read, webRead, tells, agrees⟩ := unary (by decide) () ()
  have message : told.message = some " 5%: é" := tells.message
  refine ⟨sent, webSent, told, webTold, encoded, webEncoded, read, webRead, message, ?_, ?_,
    agrees.details⟩
  · rw [agrees.message, message]
    decide +kernel
  · rw [agrees.code, tells.code]
    rfl

/-- Of a message that begins with a space, the client of gRPC reads all, that of gRPC-Web all but
the space. -/
theorem spaces_disagree :
    ((spacedFailure.encode flippingCall ⟨.empty, none⟩).toOption.bind fun sent =>
      ((protocolUnary (clientOf .grpc)).response () sent.toResponse).1.cause.bind
        Failure.message) = some " x" ∧
    ((spacedFailure.encode webCall ⟨.empty, none⟩).toOption.bind fun sent =>
      ((protocolUnary (clientOf .grpcWeb)).response () sent.toResponse).1.cause.bind
        Failure.message) = some "x" := by
  decide +kernel

end RpcWire
