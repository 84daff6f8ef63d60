import RpcWire.Proofs.Client.Headers
import RpcWire.Proofs.Client.Stream
import RpcWire.Proofs.Coding.Negotiate
import RpcWire.Proofs.Server.Compressed
import RpcWire.Proofs.Server.Response
import RpcWire.Proofs.Server.Status
import RpcWire.Proofs.Status.EndOfStream

/-!
# Responses of streams arrive as they were sent

What a server makes of a handler's response is read by a client of the same
protocol as the headers, the same messages in the same order, and one
completion (`response_arrives`), however the body is cut into chunks. A failure
keeps its code and its details; what it keeps of its message and what arrives
of the trailers depends on the protocol (`Family.carriedMessage`,
`Family.carriedValues`).
-/

namespace RpcWire

variable {σ : Type}

open Envelope (Fits FitsPacked Sealed Undoes frame Splitter)

/-! ## What arrives -/

/-- What of a failure's message arrives. -/
def Family.carriedMessage : Family → Option String → Option String
  | .connect, message => message
  | .grpc, message => message.filter (· ≠ "")
  | .grpcWeb, message =>
    (message.map fun m => String.ofList (Percent.trimSpaces m.toList)).filter (· ≠ "")

/-- What of the values of a trailer arrives. -/
def Family.carriedValues (f : Family) (trailers : Metadata) (key : String) : List Bytes :=
  match f with
  | .connect => (trailers.texts key).map Utf8.encode
  | .grpc => trailers.values key
  | .grpcWeb => (trailers.texts key).map fun text => Utf8.encode (TrailerText.trimmed text)

/-- The cause of a completion tells of the failure of the response. -/
def Family.Reports (f : Family) (failure cause : Option Failure) : Prop :=
  match failure, cause with
  | none, none => True
  | some sent, some read => read.code = sent.code ∧ read.message = f.carriedMessage sent.message ∧
      read.details.map (fun d => (d.typeName, d.value)) =
        sent.details.map fun d => (d.typeName, d.value)
  | _, _ => False

namespace Server.Response

/-- What the wire can hold: lengths fit their fields, and where the status of a call has fields of
its own among headers and trailers, the handler leaves them to the protocol. -/
structure Sendable (r : Response) (request : Request) (compression : Compression) : Prop where
  messages : ∀ m ∈ r.messages, FitsPacked (thresholdFor request compression) m
  last : ∀ f ∈ r.lastFrame? request.protocol, Fits f.2
  record : request.protocol ≠ .connectStream → Completion.RecordFits r.failure
  trailers : request.protocol ≠ .connectStream → r.trailers.LeavesStatus
  headers : request.protocol = .grpc → r.messages = [] → r.headers.LeavesStatus

/-- A server adds no status to headers that it is not asked to. -/
theorem leavesStatus_headersFor {r : Response} {request : Request} {compression : Compression}
    (h : r.headers.LeavesStatus) : (r.headersFor request compression).LeavesStatus := by
  intro name hname
  have apart : Text.lower FieldName.contentType ≠ Text.lower name ∧
      Text.lower request.protocol.encodingField ≠ Text.lower name := by
    simp only [List.mem_cons, List.not_mem_nil, or_false] at hname
    rcases hname with rfl | rfl | rfl <;> cases request.protocol <;> decide
  rw [values_headersFor apart.1 apart.2]
  exact h name hname

end Server.Response

/-- What a server picks for what a client advertises has a visible name, by which the client undoes
it: the names that the client knows can stand in a list, and it undoes what the server compresses
under such a name. -/
theorem Server.Response.undoes_thresholdFor {client : Registry} {request : Server.Request}
    {compression : Server.Compression} (listed : ∀ n ∈ client.names, Registry.IsListed n)
    (undone : compression.pools.UndoneBy client)
    (advertised : request.headers.text? request.protocol.acceptField = none ∨
      request.headers.text? request.protocol.acceptField = client.accept?)
    {th : Threshold} (ht : thresholdFor request compression = some th) :
    IsVisible th.pool.name ∧ Undoes (client.resolve? (some th.pool.name)) (some th) := by
  have offers := (thresholdFor_eq_some_iff.mp ht).2
  have picked := Server.Request.offers_iff.mp offers
  rcases advertised with nothing | advertised
  · -- where nothing is advertised, the server has nothing to pick from
    rw [nothing] at picked
    cases picked
  · rw [advertised] at picked
    obtain ⟨known, names, found, q, hq⟩ := Registry.find?_of_negotiate? listed picked
    refine ⟨offers.isVisible, ?_⟩
    intro th hth
    cases hth
    refine ⟨q, ?_, ?_⟩
    · rw [Registry.resolve?_of_isListed client (listed _ known) names, hq]
    · intro payload packed hpacked
      exact undone _ _ _ found hq payload packed hpacked

/-- A client and a server that understand each other: the request is one that the client makes, the
names that the client knows can stand in a list, and it undoes what the server compresses under
such a name. -/
structure Understands (c : ClientConfig σ) (callee : Method) (o : CallOptions)
    (request : Server.Request) (compression : Server.Compression) : Prop where
  protocol : request.protocol = c.family.protocol true
  codec : request.codec = c.encoding.name
  accepts : request.headers.text? request.protocol.acceptField =
    (openingRequest c (c.baseRequest callee o)).headers.text? request.protocol.acceptField
  listed : ∀ n ∈ c.pools.names, Registry.IsListed n
  undone : compression.pools.UndoneBy c.pools

/-- The pool of the response is one whose name is visible and that the client undoes. -/
theorem Understands.pool {c : ClientConfig σ} {callee : Method} {o : CallOptions}
    {request : Server.Request} {compression : Server.Compression}
    (h : Understands c callee o request compression) {th : Threshold}
    (ht : Server.Response.thresholdFor request compression = some th) :
    IsVisible th.pool.name ∧ Undoes (c.pools.resolve? (some th.pool.name)) (some th) := by
  have advertised := text?_acceptField_openingRequest c callee o
  rw [← h.protocol, ← h.accepts] at advertised
  exact Server.Response.undoes_thresholdFor h.listed h.undone advertised ht

/-! ## What is sent -/

/-- Headers by which a client knows the media type and the pool of the frames. -/
structure Announces (c : ClientConfig σ) (t : Option Threshold) (headers : Metadata) : Prop where
  type : headers.text? FieldName.contentType =
    some ((c.family.protocol true).contentType c.encoding.name)
  encoding : ∀ th ∈ t, headers.text? (c.family.protocol true).encodingField = some th.pool.name

theorem Announces.merge {c : ClientConfig σ} {t : Option Threshold} {headers : Metadata}
    (h : Announces c t headers) (trailers : Metadata) : Announces c t (headers.merge trailers) where
  type := Metadata.text?_merge_of_some h.type trailers
  encoding th hth := Metadata.text?_merge_of_some (h.encoding th hth) trailers

namespace Understands

variable {c : ClientConfig σ} {callee : Method} {o : CallOptions} {request : Server.Request}
  {compression : Server.Compression}

/-- The headers of a response say what the client needs to know. -/
theorem announces (h : Understands c callee o request compression) (r : Server.Response) :
    Announces c (Server.Response.thresholdFor request compression)
      (r.headersFor request compression) := by
  have apart : ∀ p : Protocol, Text.lower p.encodingField ≠ Text.lower FieldName.contentType := by
    intro p
    cases p <;> decide
  have legal : ∀ p : Protocol, isFieldName p.encodingField = true := by
    intro p
    cases p <;> decide
  unfold Server.Response.headersFor
  rw [Server.Response.nameEncoding_eq, h.codec]
  refine ⟨?_, ?_⟩
  · rw [Metadata.text?_eq_of_values (Metadata.values_setIf_of_ne (apart _) _), ← h.protocol]
    exact Metadata.text?_set (by decide) (Protocol.isVisible_contentType _ _)
  · intro th hth
    rw [hth, ← h.protocol]
    exact Metadata.text?_set (legal _) (h.pool hth).1

theorem undoes (h : Understands c callee o request compression) {headers : Metadata}
    (announced : Announces c (Server.Response.thresholdFor request compression) headers) :
    Undoes (StreamMemory.opened c headers).pool
      (Server.Response.thresholdFor request compression) := by
  intro th hth
  have resolved : (StreamMemory.opened c headers).pool = c.pools.resolve? (some th.pool.name) := by
    rw [← announced.encoding th hth]
    unfold StreamMemory.opened
    cases c.family <;> rfl
  rw [resolved]
  exact (h.pool hth).2 th rfl

end Understands

/-! ## The end of a stream -/

/-- What a client makes of a status, given what the field of its message shows. -/
theorem completeFrom_of_shows {s : Grpc.StreamState} {trailers : Metadata} {f : Option Failure}
    {message : Option String} (fits : Completion.RecordFits f)
    (shown : Completion.Shows
      (if !s.seenMessage && trailers.isEmpty then s.headers else trailers) f message) :
    Grpc.completeFrom s trailers = .complete (f.map fun g =>
        ⟨g.code, (message.map Percent.decode).filter (· ≠ ""), g.details.map Detail.qualified,
          s.headers.merge trailers, none⟩)
      (if !s.seenMessage && trailers.isEmpty then s.headers else trailers) := by
  unfold Grpc.completeFrom
  simp only [Completion.failure?_parse fits shown, Completion.trailersOnly_parse]

/-- A cause with the failure's code, message and details reports it. -/
theorem Family.reports_map (family : Family) (f : Option Failure)
    (message : Failure → Option String) (detail : Detail → Detail) (metadata : Metadata)
    (hm : ∀ g ∈ f, message g = family.carriedMessage g.message)
    (hd : ∀ d : Detail, (detail d).typeName = d.typeName ∧ (detail d).value = d.value) :
    family.Reports f (f.map fun g =>
      ⟨g.code, message g, g.details.map detail, metadata, none⟩) := by
  cases f with
  | none => trivial
  | some g =>
    refine ⟨rfl, hm g rfl, ?_⟩
    show (g.details.map detail).map (fun d => (d.typeName, d.value)) = _
    rw [List.map_map]
    refine List.map_congr_left ?_
    intro d _
    show ((detail d).typeName, (detail d).value) = _
    rw [(hd d).1, (hd d).2]

/-- What gRPC reads of a status that shows the written message. -/
theorem Family.reports_grpc (f : Option Failure) (metadata : Metadata) :
    Family.grpc.Reports f (f.map fun g =>
      ⟨g.code, ((Server.Response.messageText? f).map Percent.decode).filter (· ≠ ""),
        g.details.map Detail.qualified, metadata, none⟩) := by
  refine Family.reports_map .grpc f _ _ _ ?_ ?_
  · intro g hg
    rw [hg]
    show ((g.message.map Percent.encode).map Percent.decode).filter (· ≠ "") = _
    cases g.message with
    | none => rfl
    | some text =>
      rw [Option.map_some, Option.map_some, Percent.decode_encode]
      rfl
  · intro d
    exact ⟨d.typeName_qualified, d.value_qualified⟩

/-- The visible trailers are read back from the text that gRPC-Web writes, after any of the
protocol's own and without the blanks at their ends. -/
theorem carriedValues_parse_encode {trailers : Metadata} (leaves : trailers.LeavesStatus)
    (f : Option Failure) (key : String) :
    Family.grpcWeb.carriedValues trailers key <:+
      (TrailerText.parse
        (TrailerText.encode (Server.Response.addStatus trailers f))).values key := by
  show (trailers.texts key).map (fun text => Utf8.encode (TrailerText.trimmed text)) <:+ _
  rw [TrailerText.values_parse_encode]
  obtain ⟨front, whole⟩ := Server.Response.values_suffix_addStatus leaves f key
  refine ⟨(front.filterMap visibleText?).map fun text => Utf8.encode (TrailerText.trimmed text), ?_⟩
  rw [Metadata.texts, Metadata.texts, ← whole, List.filterMap_append, List.map_append]

/-- Events that begin with a completion that tells how a response ended. -/
def Concludes (family : Family) (r : Server.Response) (es : List (Event Bytes)) : Prop :=
  ∃ cause trailers more, es = .complete cause trailers :: more ∧
    family.Reports r.failure cause ∧
    ∀ key, family.carriedValues r.trailers key <:+ trailers.values key

/-- The frame that ends a Connect stream is read as the end that the handler gave. -/
theorem concludes_connect {c : ClientConfig σ} (hf : c.family = .connect) (r : Server.Response)
    (m : StreamMemory) (fits : Fits (EndOfStream.mk r.failure r.trailers).encode)
    (rest : List (Event Bytes)) :
    Concludes .connect r ((protocolStream c).produce m
      (.message (frame Envelope.endStreamFlag (EndOfStream.mk r.failure r.trailers).encode) ::
        rest)) := by
  obtain ⟨trailers, read, values⟩ := (EndOfStream.mk r.failure r.trailers).parse?_encode
  have plain : Envelope.endStreamFlag &&& Envelope.compressedFlag = 0 := by decide
  have taken := Protocol.connectStream.takeFrame_frame fits plain m.pool
  have last : Envelope.has ⟨Envelope.endStreamFlag, (EndOfStream.mk r.failure r.trailers).encode⟩
      Envelope.endStreamFlag = true := by
    unfold Envelope.has
    simp only
    decide
  have event : (protocolEvent c m (.message (frame Envelope.endStreamFlag
      (EndOfStream.mk r.failure r.trailers).encode))).1 = .complete (r.failure.map fun f =>
        ⟨f.code, f.message, f.details.map Detail.bare, trailers, none⟩) trailers := by
    unfold protocolEvent
    simp only [hf, Connect.streamEvent, taken, last, read, if_true]
  refine ⟨_, trailers, _, congrArg (· :: _) event, ?_, ?_⟩
  · refine Family.reports_map .connect r.failure _ _ _ (fun _ _ => rfl) ?_
    intro d
    exact ⟨d.typeName_bare, rfl⟩
  · intro key
    rw [values key]
    exact List.suffix_rfl

/-- Trailers, or headers where there is no body, are read as this end by gRPC. -/
theorem concludes_grpc {c : ClientConfig σ} (hf : c.family = .grpc) {r : Server.Response}
    (record : Completion.RecordFits r.failure) {m : StreamMemory} {trailers : Metadata}
    (shown : Completion.Shows (if !m.seenMessage && trailers.isEmpty then m.headers else trailers)
      r.failure (Server.Response.messageText? r.failure))
    (values : ∀ key, r.trailers.values key <:+
      (if !m.seenMessage && trailers.isEmpty then m.headers else trailers).values key) :
    Concludes .grpc r ((protocolStream c).produce m [.complete none trailers]) := by
  have event := protocolEvent_complete (c := c) (by rw [hf]; decide) m trailers
  exact ⟨_, _, [], congrArg (· :: []) (event.trans (completeFrom_of_shows record shown)),
    Family.reports_grpc r.failure _, values⟩

theorem concludes_grpcWeb {c : ClientConfig σ} (hf : c.family = .grpcWeb) {r : Server.Response}
    (m : StreamMemory) (record : Completion.RecordFits r.failure)
    (leaves : r.trailers.LeavesStatus)
    (fits : Fits (TrailerText.encode (Server.Response.addStatus r.trailers r.failure)))
    (rest : List (Event Bytes)) :
    Concludes .grpcWeb r ((protocolStream c).produce m (.message (frame Envelope.trailersFlag
      (TrailerText.encode (Server.Response.addStatus r.trailers r.failure))) :: rest)) := by
  let sent := Server.Response.addStatus r.trailers r.failure
  let read := TrailerText.parse (TrailerText.encode sent)
  have event : (protocolEvent c m (.message (frame Envelope.trailersFlag
      (TrailerText.encode sent)))).1 = Grpc.completeFrom m read := protocolEvent_trailers hf fits m
  have shown := Completion.shows_parse_encode leaves r.failure
  -- a status is there, so the headers are not asked for one
  have source : (if !m.seenMessage && read.isEmpty then m.headers else read) = read := by
    rw [Metadata.isEmpty_of_text? shown.number, Bool.and_false]
    rfl
  refine ⟨_, read, _, congrArg (· :: _) (event.trans (by
    rw [completeFrom_of_shows record (by rw [source]; exact shown), source])), ?_, ?_⟩
  · refine Family.reports_map .grpcWeb r.failure _ _ _ ?_ ?_
    · intro g hg
      rw [hg]
      show (((g.message.map Percent.encode).map TrailerText.trimmed).map Percent.decode).filter
        (· ≠ "") = _
      cases g.message with
      | none => rfl
      | some text =>
        rw [Option.map_some, Option.map_some, Option.map_some, TrailerText.trimmed,
          Percent.decode_trim_encode]
        rfl
    · intro d
      exact ⟨d.typeName_qualified, d.value_qualified⟩
  · intro key
    exact carriedValues_parse_encode leaves r.failure key

/-! ## The whole response -/

/-- gRPC trailers tell how the response ended, and where there is nothing but headers, they do. -/
theorem concludes_of_sent_grpc {c : ClientConfig σ} (hf : c.family = .grpc)
    {request : Server.Request} {compression : Server.Compression} {r : Server.Response}
    {sent : Http.WireResponse} (protocol : request.protocol = .grpc)
    (sendable : r.Sendable request compression) {fs : List (UInt8 × Bytes)}
    (h : r.Sent request compression fs sent) :
    Concludes .grpc r ((protocolStream c).produce
      ((StreamMemory.opened c sent.headers).afterMessages c r.messages)
      [.complete none sent.trailers]) := by
  obtain ⟨-, -, rest⟩ := h
  have enveloped : request.protocol ≠ .connectStream := by rw [protocol]; decide
  have leaves := sendable.trailers enveloped
  have other : c.family ≠ .connect := by rw [hf]; decide
  have shown := Completion.shows_addStatus leaves r.failure
  have suffix := Server.Response.values_suffix_addStatus leaves r.failure
  rw [StreamMemory.opened_grpc other, StreamMemory.afterMessages_grpc other]
  rcases rest with ⟨-, status⟩ | ⟨-, silent, headers, none⟩
  · have source : ∀ m : StreamMemory,
        (if !m.seenMessage && sent.trailers.isEmpty then m.headers else sent.trailers) =
          Server.Response.addStatus r.trailers r.failure := by
      intro m
      rw [status protocol, Metadata.isEmpty_of_text? shown.number, Bool.and_false]
      rfl
    refine concludes_grpc hf (sendable.record enveloped) ?_ ?_
    · rw [source]
      exact shown
    · intro key
      rw [source]
      exact suffix key
  · -- nothing but headers: they show the status
    have left : (r.headersFor request compression).LeavesStatus :=
      Server.Response.leavesStatus_headersFor (sendable.headers protocol silent)
    rw [silent, none]
    refine concludes_grpc hf (sendable.record enveloped) ?_ ?_
    · show Completion.Shows sent.headers r.failure _
      rw [headers]
      exact shown.merge left
    · intro key
      show r.trailers.values key <:+ sent.headers.values key
      rw [headers, Metadata.values_merge]
      exact (suffix key).trans (List.suffix_append _ _)

/-- What a client makes of the last frame, if there is one, and of the end of the body: a completion
that tells how the response ended. -/
theorem concludes_of_sent {c : ClientConfig σ} {callee : Method} {o : CallOptions}
    {request : Server.Request} {compression : Server.Compression} {r : Server.Response}
    {sent : Http.WireResponse} (understands : Understands c callee o request compression)
    (sendable : r.Sendable request compression) {fs : List (UInt8 × Bytes)}
    (h : r.Sent request compression fs sent) :
    Concludes c.family r ((protocolStream c).produce
      ((StreamMemory.opened c sent.headers).afterMessages c r.messages)
      ((r.lastFrame? request.protocol).toList.map (fun f => .message (frame f.1 f.2)) ++
        [.complete none sent.trailers])) := by
  cases hf : c.family with
  | connect =>
    have hp : request.protocol = .connectStream := by rw [understands.protocol, hf]; rfl
    have last := sendable.last (Envelope.endStreamFlag, _) (by rw [hp]; rfl)
    rw [hp]
    exact concludes_connect hf r _ last _
  | grpc =>
    have hp : request.protocol = .grpc := by rw [understands.protocol, hf]; rfl
    have told := concludes_of_sent_grpc hf hp sendable h
    rw [hp]
    exact told
  | grpcWeb =>
    have hp : request.protocol = .grpcWeb := by rw [understands.protocol, hf]; rfl
    have enveloped : request.protocol ≠ .connectStream := by rw [hp]; decide
    have last := sendable.last (Envelope.trailersFlag, _) (by rw [hp]; rfl)
    rw [hp]
    exact concludes_grpcWeb hf _ (sendable.record enveloped) (sendable.trailers enveloped) last _

/-- A response arrives as it was sent. However the body is cut into chunks, the splitter finds no
fault, and a client that knows nothing yet makes of the headers, the frames and the end of the body
the headers, one message for each message of the handler, with the same octets and in the same
order, and a completion. Its cause tells of the failure, if there is one, and the values of trailers
that the protocol carries are among its trailers, after any of the protocol's own. -/
theorem response_arrives {c : ClientConfig σ} {callee : Method} {o : CallOptions}
    {request : Server.Request} {compression : Server.Compression} {r : Server.Response}
    {sent : Http.WireResponse} (understands : Understands c callee o request compression)
    (sendable : r.Sendable request compression) (encoded : r.encode request compression = .ok sent)
    {chunks : List Bytes} (body : chunks.flatten = sent.body) :
    ∃ cause trailers,
      Event.untilComplete ((protocolStream c).produce .fresh (.headers sent.headers ::
        ((Splitter.fresh.pushAll chunks).1.map .message ++ [.complete none sent.trailers]))) =
        .headers sent.headers :: (r.messages.map .message ++ [.complete cause trailers]) ∧
      (Splitter.fresh.pushAll chunks).2.finish = .ok () ∧
      c.family.Reports r.failure cause ∧
      ∀ key, c.family.carriedValues r.trailers key <:+ trailers.values key := by
  have framed : request.protocol.isEnveloped = true := by
    rw [understands.protocol]
    cases c.family <;> decide
  obtain ⟨fs, frames, whole, rest⟩ := Server.Response.sent_of_encode framed encoded
  have fits : ∀ f ∈ fs ++ (r.lastFrame? request.protocol).toList, Fits f.2 := by
    intro f hf
    rcases List.mem_append.mp hf with hf | hf
    · exact Envelope.fits_of_sealed frames sendable.messages f hf
    · exact sendable.last f (Option.mem_toList.mp hf)
  have cut := Splitter.pushAll_frames (body.trans whole) fits
  have announced : Announces c (Server.Response.thresholdFor request compression) sent.headers := by
    rcases rest with ⟨headers, -⟩ | ⟨-, -, headers, -⟩
    · rw [headers]
      exact understands.announces r
    · rw [headers]
      exact (understands.announces r).merge _
  -- the stream up to its last message
  have begins : ∀ more, (protocolStream c).produce .fresh (.headers sent.headers ::
      (fs.map (fun f => .message (frame f.1 f.2)) ++ more)) = .headers sent.headers ::
        (r.messages.map .message ++ (protocolStream c).produce
          ((StreamMemory.opened c sent.headers).afterMessages c r.messages) more) := by
    intro more
    show (protocolEvent c .fresh (.headers sent.headers)).1 ::
      (protocolStream c).produce (protocolEvent c .fresh (.headers sent.headers)).2 _ = _
    rw [protocolEvent_headers announced.type]
    exact congrArg (Event.headers sent.headers :: ·)
      (produce_frames (understands.undoes announced) frames sendable.messages more)
  -- and its end
  have ends := concludes_of_sent understands sendable ⟨frames, whole, rest⟩
  obtain ⟨cause, trailers, more, hend, reports, values⟩ := ends
  refine ⟨cause, trailers, ?_, ?_, reports, values⟩
  · rw [cut, List.map_map, List.map_append, List.append_assoc]
    have step := begins ((r.lastFrame? request.protocol).toList.map
      (fun f => .message (frame f.1 f.2)) ++ [.complete none sent.trailers])
    rw [hend] at step
    refine (congrArg Event.untilComplete step).trans ?_
    exact congrArg (Event.headers sent.headers :: ·) (Event.untilComplete_messages _ _ _ _)
  · rw [cut]
    rfl

/-! ## A failure after compressed messages -/

/-- A registry of one pool, which writes payloads backwards. -/
def flipping : Registry := ⟨[.reversing "flip"]⟩

theorem flipping_undone : flipping.UndoneBy flipping := by
  have only : ∀ name p, flipping.find? name = some p → p = .reversing "flip" := by
    intro name p h
    exact List.mem_singleton.mp (List.mem_of_find?_eq_some h)
  refine Registry.undoneBy_of_same ?_ ?_
  · intro name p q hp hq
    rw [only name p hp, only name q hq]
  · intro name p hp
    rw [only name p hp]
    exact Pool.reversing_roundTrips "flip"

theorem flipping_listed : ∀ n ∈ flipping.names, Registry.IsListed n := by
  intro n hn
  rw [List.mem_singleton.mp hn]
  exact ⟨by decide, by decide, by decide⟩

/-- A gRPC client that knows the one pool. -/
def flippingClient : ClientConfig Unit :=
  { ClientConfig.new "http://h" with family := .grpc, pools := flipping }

def sampleCallee : Method := .of "s/m" .bidiStream .unknown

/-- The client's call as the server reads it. -/
def flippingCall : Server.Request where
  protocol := .grpc
  service := "s"
  method := "m"
  codec := "proto"
  contentType := "application/grpc+proto"
  headers := .ofTexts [(FieldName.grpcAcceptEncoding, "flip")]
  timeout := none
  compression := none
  messages := []

/-- A failure after two messages, one of which is long enough to be compressed. -/
def lateFailure : Server.Response where
  messages := [[1, 2, 3], [4]]
  failure := some ⟨.notFound, some "gone ", [⟨"a/b", [7]⟩], .empty, none⟩
  headers := .empty
  trailers := .ofTexts [("x-spent", "1")]

theorem understands_flippingCall :
    Understands flippingClient sampleCallee .empty flippingCall ⟨flipping, some 2⟩ where
  protocol := rfl
  codec := rfl
  accepts := by decide +kernel
  listed := flipping_listed
  undone := flipping_undone

theorem sendable_lateFailure : lateFailure.Sendable flippingCall ⟨flipping, some 2⟩ where
  messages m hm := by
    have short : m.length < 2 ^ 32 := by
      have all : ∀ m ∈ lateFailure.messages, m.length < 2 ^ 32 := by decide
      exact all m hm
    refine ⟨short, ?_⟩
    intro th hth packed hpacked
    have known := (Server.Response.thresholdFor_eq_some_iff.mp hth).2.known
    have pool : th.pool = .reversing "flip" :=
      List.mem_singleton.mp (List.mem_of_find?_eq_some known)
    rw [pool] at hpacked
    cases hpacked
    show m.reverse.length < 2 ^ 32
    rw [List.length_reverse]
    exact short
  last f hf := nomatch hf
  record _ g hg := by
    cases hg
    decide +kernel
  trailers _ := by decide +kernel
  headers _ empty := nomatch empty

/-- One octet at a time. -/
theorem response_arrives_octets :
    ∃ sent, lateFailure.encode flippingCall ⟨flipping, some 2⟩ = .ok sent ∧
      ∃ cause trailers, Event.untilComplete ((protocolStream flippingClient).produce .fresh
          (.headers sent.headers ::
            ((Splitter.fresh.pushAll (sent.body.map ([·]))).1.map .message ++
              [.complete none sent.trailers]))) =
          [.headers sent.headers, .message [1, 2, 3], .message [4],
            .complete (some cause) trailers] ∧
        cause.code = .notFound ∧ cause.message = some "gone " ∧
        cause.details.map (fun d => (d.typeName, d.value)) = [("b", [7])] ∧
        [Utf8.encode "1"] <:+ trailers.values "x-spent" := by
  have succeeds : (lateFailure.encode flippingCall ⟨flipping, some 2⟩).toOption.isSome = true := by
    decide +kernel
  cases encoded : lateFailure.encode flippingCall ⟨flipping, some 2⟩ with
  | error cause =>
    rw [encoded] at succeeds
    cases succeeds
  | ok sent =>
    have octets : (sent.body.map ([·])).flatten = sent.body := by
      rw [← List.flatMap_def, List.flatMap_singleton']
    obtain ⟨cause, trailers, events, -, reports, values⟩ :=
      response_arrives understands_flippingCall sendable_lateFailure encoded octets
    cases cause with
    | none => exact absurd reports id
    | some cause =>
      obtain ⟨code, message, details⟩ := reports
      refine ⟨sent, rfl, cause, trailers, events, code, message, ?_, ?_⟩
      · rw [details]
        decide +kernel
      · have carried : Family.carriedValues .grpc lateFailure.trailers "x-spent" =
            [Utf8.encode "1"] := by decide +kernel
        rw [← carried]
        exact values "x-spent"

/-! ## A message with a space in front -/

def webClient : ClientConfig Unit := { ClientConfig.new "http://h" with family := .grpcWeb }

/-- The client's call as the server reads it. -/
def webCall : Server.Request := { flippingCall with protocol := .grpcWeb, headers := .empty }

/-- A failure whose message begins with a space. -/
def spacedFailure : Server.Response := .ofFailure (.new .notFound " x")

/-- Of this message the client of gRPC-Web reads no space. -/
theorem message_without_space :
    Understands webClient sampleCallee .empty webCall ⟨.empty, none⟩ ∧
    spacedFailure.Sendable webCall ⟨.empty, none⟩ ∧
    (spacedFailure.failure.bind Failure.message = some " x") ∧
    ((spacedFailure.encode webCall ⟨.empty, none⟩).toOption.map fun sent =>
      (Event.untilComplete ((protocolStream webClient).produce .fresh (.headers sent.headers ::
        ((Splitter.fresh.pushAll [sent.body]).1.map .message ++
          [.complete none sent.trailers])))).filterMap fun
        | .complete cause _ => some (cause.bind Failure.message)
        | _ => none) = some [some "x"] := by
  refine ⟨⟨rfl, rfl, by decide +kernel, ?_, ?_⟩, ⟨?_, ?_, ?_, ?_, ?_⟩, rfl, by decide +kernel⟩
  · intro n hn
    have only : n = "gzip" := List.mem_singleton.mp hn
    rw [only]
    exact ⟨by decide, by decide, by decide⟩
  · intro name p q hp
    cases hp
  · exact fun m hm => nomatch hm
  · intro f hf
    cases hf
    show List.length _ < 2 ^ 32
    decide +kernel
  · intro _ g hg
    cases hg
    decide +kernel
  · intro _
    decide +kernel
  · intro h
    cases h

end RpcWire
