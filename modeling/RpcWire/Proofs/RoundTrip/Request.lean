import RpcWire.Proofs.Client.Request

/-!
# Requests arrive as they were made

Whatever a client without interceptors makes of a call, a server reads as that
call (`request_arrives`): the service and the method, the codec, the timeout
rounded down as the protocol writes it, the messages, and what the caller has
set. It does not matter whether the message goes into a body, into the query of
a GET or into envelopes, nor what of it is compressed.
-/

namespace RpcWire

variable {σ : Type}

open Envelope (FitsPacked Sealed Undoes frame)

/-! ## What is sent -/

/-- The frames that a hook makes of messages, up to the first one that it rejects. -/
def StreamHook.packAll (h : StreamHook σ) : σ → List Bytes → Except Failure (List Bytes) × σ
  | s, [] => (.ok [], s)
  | s, body :: bodies =>
    match h.message s body with
    | (.error cause, s) => (.error cause, s)
    | (.ok packed, s) =>
      match h.packAll s bodies with
      | (.error cause, s) => (.error cause, s)
      | (.ok frames, s) => (.ok (packed :: frames), s)

theorem request_unaryHook {c : ClientConfig σ} (direct : c.interceptors = []) (s : σ)
    (r : Http.Request) : c.unaryHook.request s r = (protocolUnary c).request s r := by
  unfold ClientConfig.unaryHook
  rw [direct]
  exact passOut_singleton _ _ _

/-- The request of a unary call to which no interceptor does anything. -/
def ClientConfig.unaryRequest (c : ClientConfig σ) (r : Http.Request) :
    Except Failure Http.Request :=
  ((protocolUnary c : UnaryHook Unit).request () r).1

theorem request_protocolUnary {τ : Type} (c : ClientConfig σ) (s : τ) (r : Http.Request) :
    (protocolUnary c).request s r = (c.unaryRequest r, s) := by
  unfold ClientConfig.unaryRequest protocolUnary
  cases c.family <;> rfl

theorem request_streamHook {c : ClientConfig σ} (direct : c.interceptors = [])
    (s : σ × StreamMemory) (r : Http.Request) :
    c.streamHook.request s r = (.ok (openingRequest c r), s) := by
  unfold ClientConfig.streamHook
  rw [direct]
  exact passOut_singleton (protocolStream c).onSecond.request s r

theorem message_streamHook {c : ClientConfig σ} (direct : c.interceptors = [])
    (s : σ × StreamMemory) (body : Bytes) :
    c.streamHook.message s body = (Grpc.packMessage c body, s) := by
  unfold ClientConfig.streamHook
  rw [direct]
  exact passOut_singleton (protocolStream c).onSecond.message s body

theorem packAll_streamHook {c : ClientConfig σ} (direct : c.interceptors = [])
    (total : ∀ t ∈ c.compression, ∀ payload, ∃ packed, t.pool.compress payload = .ok packed)
    (s : σ × StreamMemory) (bodies : List Bytes) :
    ∃ fs : List (UInt8 × Bytes),
      c.streamHook.packAll s bodies = (.ok (fs.map fun f => frame f.1 f.2), s) ∧
        List.Forall₂ (Sealed c.compression) bodies fs := by
  induction bodies with
  | nil => exact ⟨[], rfl, .nil⟩
  | cons body bodies ih =>
    obtain ⟨f, packed, hsealed⟩ := Envelope.pack_ok (m := body) fun t ht => total t ht body
    obtain ⟨fs, later, frames⟩ := ih
    refine ⟨f :: fs, ?_, .cons hsealed frames⟩
    have first : c.streamHook.message s body = (.ok (frame f.1 f.2), s) := by
      rw [message_streamHook direct, Grpc.packMessage, packed]
      rfl
    unfold StreamHook.packAll
    simp only [first, later]
    rfl

/-! ## Where it is sent -/

/-- A pool whose compression a server undoes: it never fails, its name can stand in a header, and
the server has a pool of that name which gives back what it has compressed. -/
structure Pool.Understood (p : Pool) (server : Registry) : Prop where
  names : Registry.Names p.name
  visible : IsVisible p.name
  total : ∀ payload, ∃ packed, p.compress payload = .ok packed
  undone : ∃ q, server.find? p.name = some q ∧
    ∀ payload packed, p.compress payload = .ok packed → q.decompress packed = .ok payload

/-- A client that calls a method of a server directly: it has no interceptors, the host is a scheme
and an authority, service and method are legal in a path, and the server understands how it
compresses. -/
structure Calls (c : ClientConfig σ) (compression : Server.Compression) (callee : Method)
    (service method : String) : Prop where
  direct : c.interceptors = []
  host : ∃ scheme authority : String,
    Http.withoutTrailingSlashes c.host = scheme ++ "://" ++ authority ∧
    scheme.toList.all Http.Target.isSchemeChar = true ∧
    ∀ ch ∈ authority.toList, Http.Target.endsAuthority ch = false
  path : callee.path = service ++ "/" ++ method
  service : service ≠ "" ∧ service.toList.head? ≠ some '/' ∧
    service.toList.all Http.Target.isPathChar = true
  method : method ≠ "" ∧ '/' ∉ method.toList ∧ method.toList.all Http.Target.isPathChar = true
  understood : ∀ t ∈ c.compression, t.pool.Understood compression.pools
  /-- The name can stand in a query if it has to. -/
  apart : c.get ≠ .never → ∀ t ∈ c.compression, '&' ∉ t.pool.name.toList ∧ '#' ∉ t.pool.name.toList

namespace Calls

variable {c : ClientConfig σ} {compression : Server.Compression} {callee : Method}
  {service method : String}

theorem toList_url (h : Calls c compression callee service method) :
    ∃ scheme authority : List Char, scheme.all Http.Target.isSchemeChar = true ∧
      (∀ ch ∈ authority, Http.Target.endsAuthority ch = false) ∧
      (Http.Request.post c.host callee).url.toList = scheme ++ ':' :: '/' :: '/' ::
        (authority ++ '/' :: (service.toList ++ '/' :: method.toList)) := by
  obtain ⟨scheme, authority, hhost, hscheme, hauthority⟩ := h.host
  refine ⟨scheme.toList, authority.toList, hscheme, hauthority, ?_⟩
  show (Http.withoutTrailingSlashes c.host ++ "/" ++ callee.path).toList = _
  rw [hhost, h.path]
  simp only [String.toList_append, List.append_assoc]
  rfl

/-- The URL of a request to the method, with or without a query, names the method and has the
query. -/
theorem parts_of_target (h : Calls c compression callee service method) (query : Option String)
    {r : Http.Request} (unmarked : ∀ q ∈ query, '#' ∉ q.toList)
    (made : r.url.toList = (Http.Request.post c.host callee).url.toList ++
      Http.Target.tail (query.map String.toList)) {target : Http.Target}
    (ht : r.target = .ok target) :
    Server.Request.procedureOf target.path = .ok (service, method) ∧ target.query = query := by
  obtain ⟨scheme, authority, hscheme, hauthority, base⟩ := h.toList_url
  have parsed : Http.Target.parse? r.url = some target := by
    unfold Http.Request.target at ht
    split at ht
    · next other => cases ht; exact other
    · cases ht
  have hpath : (service.toList ++ '/' :: method.toList).all Http.Target.isPathChar = true := by
    rw [List.all_append, List.all_cons, h.service.2.2, h.method.2.2]
    decide
  have hquery : ∀ q ∈ query.map String.toList, '#' ∉ q := by
    intro q hq
    obtain ⟨text, htext, rfl⟩ := Option.map_eq_some_iff.mp hq
    exact unmarked text htext
  have whole : r.url.toList = scheme ++ ':' :: '/' :: '/' :: (authority ++
      ('/' :: (service.toList ++ '/' :: method.toList) ++
        Http.Target.tail (query.map String.toList))) := by
    rw [made, base]
    simp only [List.append_assoc, List.cons_append]
  obtain ⟨path, rest⟩ :=
    Http.Target.parts_of_parse? hscheme hauthority hpath hquery whole parsed
  refine ⟨?_, ?_⟩
  · rw [path]
    exact Server.Request.procedureOf_path h.service.1 h.service.2.1 h.method.1 h.method.2.1
  · rw [rest, Option.map_map]
    cases query with
    | none => rfl
    | some q => exact congrArg some String.ofList_toList

theorem undoes (h : Calls c compression callee service method) :
    ∃ pool, Server.Request.poolOf (c.compression.map fun t => t.pool.name) compression.pools =
      .ok pool ∧ Undoes pool c.compression := by
  cases ht : c.compression with
  | none => exact ⟨none, rfl, fun t h => nomatch h⟩
  | some t =>
    obtain ⟨names, -, -, q, found, back⟩ := h.understood t ht
    refine ⟨some q, Server.Request.poolOf_some names found, ?_⟩
    intro th hth
    refine ⟨q, rfl, ?_⟩
    cases hth
    exact back

/-- What a client has compressed, or has not, is given back. -/
theorem expand (h : Calls c compression callee service method) {body packed : Bytes}
    {name : Option String} (compressed : Connect.Compressed c.compression body packed name) :
    ∃ pool, Server.Request.poolOf name compression.pools = .ok pool ∧
      Server.Request.expand pool packed = .ok body := by
  rcases compressed with ⟨rfl, rfl⟩ | ⟨t, ht, rfl, hpacked⟩
  · exact ⟨none, rfl, rfl⟩
  · obtain ⟨names, -, -, q, found, back⟩ := h.understood t ht
    refine ⟨some q, Server.Request.poolOf_some names found, ?_⟩
    show (q.decompress packed).mapError _ = _
    rw [back body packed hpacked]
    rfl

end Calls

/-! ## What arrives -/

/-- A call as the server reads it is the one that was made. -/
structure Conveys (c : ClientConfig σ) (o : CallOptions) (p : Protocol) (service method : String)
    (messages : List Bytes) (call : Server.Request) : Prop where
  protocol : call.protocol = p
  service : call.service = service
  method : call.method = method
  codec : call.codec = c.encoding.name
  timeout : call.timeout = (o.timeout.or c.timeout).map c.family.writtenTimeout
  messages : call.messages = messages
  headers : o.Kept call.headers

/-- A request with a body is accepted by a server, and read as a call of which `p` holds, if its URL
is a legal target at all. -/
def Http.Request.ReadAs (r : Http.Request) (body : Bytes) (compression : Server.Compression)
    (p : Server.Request → Prop) : Prop :=
  ∀ target, r.target = .ok target → ∃ wire call, r.toWire body = .ok wire ∧
    Server.Request.parse wire compression = .ok call ∧ p call

theorem toWire_ok {r : Http.Request} {target : Http.Target} {headers : Metadata}
    (ht : r.target = .ok target) (hh : r.wireHeaders = .ok headers) (body : Bytes) :
    r.toWire body = .ok ⟨r.verb, target, headers, body⟩ := by
  unfold Http.Request.toWire
  simp only [ht, hh, bind, Except.bind]

/-- On the wire a POST has its media type, whatever the caller has set. -/
theorem wireHeaders_of_post {r : Http.Request} {p : Protocol} {e : Encoding}
    (post : r.verb = "POST") (type : r.contentType = p.contentType e.name) :
    r.wireHeaders = .ok (r.headers.set FieldName.contentType (p.contentType e.name)) := by
  have typed : r.isTyped = true := by
    rw [Http.Request.isTyped, post]
    rfl
  unfold Http.Request.wireHeaders
  rw [if_pos typed, type, Metadata.set?_of_legal (by decide)
    (all_isFieldByte (Protocol.isVisible_contentType p e))]

/-- A posted request is read by the server as the call that was made. -/
theorem readAs_of_posted {c : ClientConfig σ} {compression : Server.Compression} {callee : Method}
    {service method : String} (calls : Calls c compression callee service method) {o : CallOptions}
    {p : Protocol} {name : Option String} {r : Http.Request} (posted : Posted c o p name r)
    (url : r.url = (c.baseRequest callee o).url) {pool : Option Pool}
    (known : Server.Request.poolOf name compression.pools = .ok pool) {body : Bytes}
    {messages : List Bytes}
    (read : (if p.isEnveloped then Server.Request.payloads pool body
      else (Server.Request.expand pool body).map fun message => [message]) = .ok messages) :
    r.ReadAs body compression (Conveys c o p service method messages) := by
  intro target ht
  have headers := wireHeaders_of_post posted.verb posted.type
  obtain ⟨procedure, -⟩ := calls.parts_of_target none (fun q hq => nomatch hq)
    (by rw [url]; exact (List.append_nil _).symm) ht
  refine ⟨_, _, toWire_ok ht headers body, Server.Request.parse_post (p := p) (e := c.encoding)
    posted.verb ?_ procedure ?_ ?_ read, rfl, rfl, rfl, rfl, rfl, rfl, ?_⟩
  · exact Metadata.text?_set (by decide) (Protocol.isVisible_contentType p c.encoding)
  · -- the media type is set last, which no other part of the request looks at
    exact (Server.Request.timeoutOf_set_contentType p r.headers _).trans posted.timed
  · show Server.Request.poolOf ((r.headers.set FieldName.contentType _).text? p.encodingField)
      compression.pools = .ok pool
    rw [Server.Request.coding_set_contentType, posted.coding]
    exact known
  · exact posted.kept.set (by decide) _

/-- A call in a query is read as the same call. -/
theorem readAs_toGet {c : ClientConfig σ} {compression : Server.Compression} {callee : Method}
    {service method : String} (calls : Calls c compression callee service method)
    (connect : c.family = .connect) (used : c.get ≠ .never) (o : CallOptions) {body packed : Bytes}
    {name : Option String} (compressed : Connect.Compressed c.compression body packed name) :
    (Connect.toGet (Connect.prepared c callee o) packed name c.encoding).ReadAs [] compression
      (Conveys c o .connect service method [body]) := by
  intro target ht
  have apart : ∀ n ∈ name, '&' ∉ n.toList ∧ '#' ∉ n.toList := by
    intro n hn
    rcases compressed with ⟨rfl, -⟩ | ⟨t, hmem, rfl, -⟩
    · cases hn
    · cases hn
      exact calls.apart used t hmem
  have unmarked : ∀ q ∈ some (Connect.query packed name c.encoding), '#' ∉ q.toList := by
    rintro q ⟨⟩
    exact Server.Request.not_mem_query packed (fun n hn => (apart n hn).2) c.encoding
  have made : (Connect.toGet (Connect.prepared c callee o) packed name c.encoding).url.toList =
      (Http.Request.post c.host callee).url.toList ++
        Http.Target.tail ((some (Connect.query packed name c.encoding)).map String.toList) := by
    show ((Http.Request.post c.host callee).url ++ "?" ++ Connect.query packed name
      c.encoding).toList = _
    rw [String.toList_append, String.toList_append, List.append_assoc]
    rfl
  obtain ⟨procedure, query⟩ := calls.parts_of_target _ unmarked made ht
  obtain ⟨timed, kept⟩ := Connect.headers_toGet connect callee o packed name
  obtain ⟨pool, known, opened⟩ := calls.expand compressed
  exact ⟨_, _, toWire_ok ht rfl [], Server.Request.parse_get rfl procedure timed query
    (fun n hn => (apart n hn).1) known opened, rfl, rfl, rfl, rfl, rfl, rfl, kept⟩

theorem family_protocol {f : Family} (h : f ≠ .connect) : f.protocol false = f.protocol true := by
  cases f with
  | connect => exact absurd rfl h
  | grpc => rfl
  | grpcWeb => rfl

theorem request_protocolUnary_of_enveloped {τ : Type} {c : ClientConfig σ}
    (enveloped : c.family ≠ .connect)
    (s : τ) (r : Http.Request) {packed : Bytes}
    (h : Envelope.pack r.body c.compression = .ok packed) :
    (protocolUnary c).request s r = (.ok { openingRequest c r with body := packed }, s) := by
  unfold protocolUnary openingRequest
  cases hf : c.family with
  | connect => exact absurd hf enveloped
  | grpc =>
    show ((Grpc.packMessage c r.body).map _, s) = _
    rw [Grpc.packMessage, h]
    rfl
  | grpcWeb =>
    show ((Grpc.packMessage c r.body).map _, s) = _
    rw [Grpc.packMessage, h]
    rfl

theorem url_openingRequest (c : ClientConfig σ) (r : Http.Request) :
    (openingRequest c r).url = r.url := by
  unfold openingRequest
  cases c.family <;> rfl

/-- The request of a unary call without an envelope, which may be a GET. -/
theorem readAs_unaryRequest {c : ClientConfig σ} {compression : Server.Compression}
    {callee : Method} {service method : String}
    (calls : Calls c compression callee service method) (connect : c.family = .connect)
    (o : CallOptions) (body : Bytes) :
    ∃ r, Connect.unaryRequest c { c.baseRequest callee o with body } = .ok r ∧
      r.ReadAs r.body compression (Conveys c o .connect service method [body]) := by
  obtain ⟨packed, name, sent, compressed⟩ :=
    Connect.compress_ok fun t ht => (calls.understood t ht).total body
  cases get : Connect.usesGet c.get callee packed with
  | true =>
    -- a client that never sends a GET does not need names that can stand in a query
    have used : c.get ≠ .never := by
      intro never
      rw [Connect.usesGet, never] at get
      exact absurd (Bool.and_eq_true_iff.mp get).2 (by simp [GetPolicy.allows])
    exact ⟨_, Connect.unaryRequest_get sent get, readAs_toGet calls connect used o compressed⟩
  | false =>
    have visible : ∀ n ∈ name, IsVisible n := by
      intro n hn
      rcases compressed with ⟨rfl, -⟩ | ⟨t, ht, rfl, -⟩
      · cases hn
      · cases hn
        exact (calls.understood t ht).visible
    obtain ⟨pool, known, opened⟩ := calls.expand compressed
    refine ⟨_, Connect.unaryRequest_post sent get, readAs_of_posted calls
      (Connect.posted_unaryRequest connect visible callee o packed) rfl known ?_⟩
    show (Server.Request.expand pool packed).map _ = _
    rw [opened]
    rfl

/-- A call arrives as it was made. The request that a client prepares for it is accepted by the
server, if its URL is a legal target at all, and read as that call: with the service and the method,
the codec, the timeout as the protocol writes it, and what the caller has set. A unary call has the
one message, whether it is sent as a GET, as a body or in an envelope; a stream has all messages
whose frames make the body, in order. The lengths in envelopes have to fit. -/
theorem request_arrives {c : ClientConfig σ} {compression : Server.Compression} {callee : Method}
    {service method : String} (calls : Calls c compression callee service method)
    (o : CallOptions) (memory : σ) :
    (∀ body, c.family = .connect ∨ FitsPacked c.compression body →
      ∃ r, c.unaryHook.request memory { c.baseRequest callee o with body } = (.ok r, memory) ∧
        r.ReadAs r.body compression
          (Conveys c o (c.family.protocol false) service method [body])) ∧
    ∀ m bodies, (∀ body ∈ bodies, FitsPacked c.compression body) →
      ∃ r frames, c.streamHook.request (memory, m) (c.baseRequest callee o) =
          (.ok r, (memory, m)) ∧
        c.streamHook.packAll (memory, m) bodies = (.ok frames, (memory, m)) ∧
        r.ReadAs frames.flatten compression
          (Conveys c o (c.family.protocol true) service method bodies) := by
  have total : ∀ t ∈ c.compression, ∀ payload, ∃ packed, t.pool.compress payload = .ok packed := by
    intro t ht
    exact (calls.understood t ht).total
  have visible : ∀ t ∈ c.compression, IsVisible t.pool.name := by
    intro t ht
    exact (calls.understood t ht).visible
  obtain ⟨pool, known, undoes⟩ := calls.undoes
  have framed : (c.family.protocol true).isEnveloped = true := by
    cases c.family <;> decide
  constructor
  · intro body fits
    rw [request_unaryHook calls.direct]
    -- a unary call of Connect has no envelope, one of the others is a stream of one message
    by_cases connect : c.family = .connect
    · obtain ⟨r, sent, arrives⟩ := readAs_unaryRequest calls connect o body
      refine ⟨r, ?_, ?_⟩
      · unfold protocolUnary
        rw [connect]
        show (Connect.unaryRequest c _, memory) = _
        rw [sent]
      · rw [connect]
        exact arrives
    · have fits : FitsPacked c.compression body := fits.resolve_left connect
      obtain ⟨f, packed, hsealed⟩ := Envelope.pack_ok (m := body) fun t ht => total t ht body
      refine ⟨_, request_protocolUnary_of_enveloped connect memory _ packed, ?_⟩
      rw [family_protocol connect]
      refine readAs_of_posted calls
        ((posted_openingRequest visible callee o body).withBody (frame f.1 f.2))
        (url_openingRequest c _) known ?_
      have read := Server.Request.payloads_frames undoes (.cons hsealed .nil) (by simpa using fits)
      rw [List.map_singleton, List.flatten_singleton] at read
      rw [if_pos framed]
      exact read
  · intro m bodies fits
    obtain ⟨fs, packed, frames⟩ := packAll_streamHook calls.direct total (memory, m) bodies
    refine ⟨_, _, request_streamHook calls.direct _ _, packed, ?_⟩
    refine readAs_of_posted calls (posted_openingRequest visible callee o [])
      (url_openingRequest c _) known ?_
    rw [if_pos framed]
    exact Server.Request.payloads_frames undoes frames fits

/-! ## A compressed message in a query -/

/-- A Connect client that sends what it can as a GET, and whose pool writes payloads backwards. -/
def gettingClient : ClientConfig Unit where
  host := "http://h"
  family := .connect
  encoding := .json
  compression := some ⟨2, .reversing "flip"⟩
  pools := .empty
  get := .always
  interceptors := []
  timeout := some 1999999

def safeCallee : Method := .of "s/m" .unary .noSideEffects

/-- A header of the caller's own, and one that belongs to the protocols. -/
def namedOptions : CallOptions :=
  .withHeaders .empty (.ofTexts [("x-id", "7"), (FieldName.connectTimeout, "5")])

/-- A server that knows the pool. -/
def flippingServer : Server.Compression := ⟨⟨[.reversing "flip"]⟩, none⟩

theorem calls_gettingClient : Calls gettingClient flippingServer safeCallee "s" "m" where
  direct := rfl
  host := by
    refine ⟨"http", "h", by decide +kernel, by decide +kernel, ?_⟩
    intro ch hch
    rw [List.mem_singleton.mp hch]
    decide
  path := by decide +kernel
  service := by decide +kernel
  method := by decide +kernel
  understood t ht := by
    cases ht
    refine ⟨⟨by decide, by decide⟩, by decide +kernel, ?_, .reversing "flip", rfl, ?_⟩
    · intro payload
      exact ⟨_, rfl⟩
    · exact Pool.reversing_roundTrips "flip"
  apart _ t ht := by
    cases ht
    decide +kernel

/-- The request is a GET, and the server reads the message, the timeout in whole milliseconds and
the caller's own header. -/
theorem request_arrives_get :
    ∃ r target wire call,
      gettingClient.unaryHook.request ()
          { gettingClient.baseRequest safeCallee namedOptions with body := [1, 2, 3] } =
        (.ok r, ()) ∧
      r.target = .ok target ∧ r.toWire r.body = .ok wire ∧
      Server.Request.parse wire flippingServer = .ok call ∧
      r.verb = "GET" ∧ call.messages = [[1, 2, 3]] ∧ call.timeout = some 1000000 ∧
      call.headers.values "x-id" = [Utf8.encode "7"] := by
  obtain ⟨unary, -⟩ := request_arrives calls_gettingClient namedOptions ()
  obtain ⟨r, sent, arrives⟩ := unary [1, 2, 3] (.inl rfl)
  have made : ((gettingClient.unaryHook.request ()
      { gettingClient.baseRequest safeCallee namedOptions with body := [1, 2, 3] }).1.toOption.map
        fun r => (r.verb, r.target.toOption.isSome)) = some ("GET", true) := by decide +kernel
  rw [sent] at made
  have parts := Prod.mk.inj (Option.some.inj made)
  cases ht : r.target with
  | error cause =>
    rw [ht] at parts
    exact nomatch parts.2
  | ok target =>
    obtain ⟨wire, call, wired, read, conveys⟩ := arrives target ht
    refine ⟨r, target, wire, call, sent, ht, wired, read, parts.1, conveys.messages, ?_, ?_⟩
    · rw [conveys.timeout]
      decide
    · rw [conveys.headers "x-id" (by decide) (by decide +kernel)]
      decide +kernel

end RpcWire
