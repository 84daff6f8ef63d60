import RpcWire.Client.Hooks
import RpcWire.Proofs.Client.Headers
import RpcWire.Proofs.Http.Target
import RpcWire.Proofs.Server.Request

/-!
# What a client's request says

Seen from the server's side, a request that a client has prepared says which
protocol and codec it uses, how its messages are compressed and when it times
out, and it still has what the caller has set (`CallOptions.Kept`). This holds
of the request that opens a stream (`posted_openingRequest`) and of a Connect
request with a body (`posted_unaryRequest`); of a GET the query says some of it.
-/

namespace RpcWire

variable {σ : Type}

/-! ## What a caller has set -/

/-- Of two names one of which is such and the other is not, no spellings are the same. -/
theorem lower_ne {p : String → Bool} {name key : String} (such : p (Text.lower name) = true)
    (other : p (Text.lower key) = false) : Text.lower name ≠ Text.lower key := by
  intro same
  rw [same, other] at such
  cases such

namespace CallOptions

/-- The caller's values of the names that do not belong to the protocols are still there. -/
def Kept (o : CallOptions) (m : Metadata) : Prop :=
  ∀ key, FieldName.isReserved (Text.lower key) = false → o.headers.values key ≠ [] →
    m.values key = o.headers.values key

variable {o : CallOptions} {m : Metadata}

theorem values_ownHeaders_of_own (o : CallOptions) {key : String}
    (own : FieldName.isReserved (Text.lower key) = false) :
    o.ownHeaders.values key = o.headers.values key := by
  unfold Metadata.values ownHeaders Metadata.keep
  rw [List.filterMap_filter]
  refine congrArg (List.filterMap · o.headers.fields) (funext ?_)
  intro f
  by_cases named : f.name = Text.lower key
  · rw [named, own]
    rfl
  · simp [named]

/-- What the caller may set is kept as the caller has set it. -/
theorem kept_ownHeaders (o : CallOptions) : o.Kept o.ownHeaders := by
  intro key own _
  exact o.values_ownHeaders_of_own own

/-- Setting a reserved name keeps what the caller has set. -/
theorem Kept.set {name : String} (h : o.Kept m)
    (reserved : FieldName.isReserved (Text.lower name) = true) (text : String) :
    o.Kept (m.set name text) := by
  intro key own used
  rw [Metadata.values_set_of_ne (lower_ne reserved own)]
  exact h key own used

theorem Kept.setIf {name : String} (h : o.Kept m)
    (reserved : FieldName.isReserved (Text.lower name) = true) (text : Option String) :
    o.Kept (m.setIf name text) := by
  cases text with
  | none => exact h
  | some text => exact h.set reserved text

theorem Kept.erase {name : String} (h : o.Kept m)
    (reserved : FieldName.isReserved (Text.lower name) = true) : o.Kept (m.erase name) := by
  intro key own used
  rw [Metadata.values_erase, if_neg (lower_ne reserved own)]
  exact h key own used

/-- Where the caller has set the field, a default does not count. -/
theorem Kept.setDefault (h : o.Kept m) (name text : String) : o.Kept (m.setDefault name text) := by
  intro key own used
  have kept := h key own used
  -- the caller has used the name, and still has those values there
  rw [Metadata.values_setDefault_of_used (by rw [kept]; exact used), kept]

end CallOptions

/-! ## Timeouts -/

/-- A timeout rounded down as a family of protocols writes it. -/
def Family.writtenTimeout : Family → Nanoseconds → Nanoseconds
  | .connect => Timeout.toMilliseconds
  | .grpc | .grpcWeb => Timeout.toEightDigits

/-! ## Requests with a body -/

/-- What a request with a body says to a server: the protocol `p`, the codec, the name of a pool
and the timeout. -/
structure Posted (c : ClientConfig σ) (o : CallOptions) (p : Protocol) (name : Option String)
    (r : Http.Request) : Prop where
  verb : r.verb = "POST"
  type : r.contentType = p.contentType c.encoding.name
  coding : r.headers.text? p.encodingField = name
  timed : Server.Request.timeoutOf p r.headers =
    .ok ((o.timeout.or c.timeout).map c.family.writtenTimeout)
  kept : o.Kept r.headers

theorem Posted.withBody {c : ClientConfig σ} {o : CallOptions} {p : Protocol} {name : Option String}
    {r : Http.Request} (h : Posted c o p name r) (body : Bytes) :
    Posted c o p name { r with body } :=
  ⟨h.verb, h.type, h.coding, h.timed, h.kept⟩

namespace Connect

theorem text?_version_prepareHeaders (headers : Metadata) (timeout : Option Nanoseconds) :
    (prepareHeaders headers timeout).text? FieldName.connectVersion = some "1" := by
  rw [prepareHeaders_eq, Metadata.text?_eq_of_values (Metadata.values_setIf_of_ne (by decide) _),
    Metadata.text?_eq_of_values (Metadata.values_setDefault_of_ne (by decide) _)]
  exact Metadata.text?_set (by decide) (by decide)

theorem text?_timeout_prepareHeaders {headers : Metadata}
    (empty : headers.values FieldName.connectTimeout = []) (timeout : Option Nanoseconds) :
    (prepareHeaders headers timeout).text? FieldName.connectTimeout =
      timeout.map Timeout.encodeMilliseconds := by
  rw [prepareHeaders_eq]
  refine Metadata.text?_setIf (by decide) ?_ ?_
  · intro text h
    obtain ⟨t, -, rfl⟩ := Option.map_eq_some_iff.mp h
    exact Timeout.isVisible_encodeMilliseconds t
  · rw [Metadata.values_setDefault_of_ne (by decide), Metadata.values_set_of_ne (by decide)]
    exact empty

theorem values_prepareHeaders_of_ne {key : String}
    (version : Text.lower FieldName.connectVersion ≠ Text.lower key)
    (agent : Text.lower FieldName.userAgent ≠ Text.lower key)
    (timeout : Text.lower FieldName.connectTimeout ≠ Text.lower key) (headers : Metadata)
    (t : Option Nanoseconds) : (prepareHeaders headers t).values key = headers.values key := by
  rw [prepareHeaders_eq, Metadata.values_setIf_of_ne timeout,
    Metadata.values_setDefault_of_ne agent, Metadata.values_set_of_ne version]

theorem timeoutOf_prepareHeaders {p : Protocol} (hp : p = .connect ∨ p = .connectStream)
    {headers : Metadata} (empty : headers.values FieldName.connectTimeout = [])
    (timeout : Option Nanoseconds) :
    Server.Request.timeoutOf p (prepareHeaders headers timeout) =
      .ok (timeout.map Timeout.toMilliseconds) := by
  refine Server.Request.timeoutOf_connect hp (text?_timeout_prepareHeaders empty timeout) ?_
  rw [text?_version_prepareHeaders]
  intro v hv
  exact (Option.some.inj hv).symm

theorem kept_prepareHeaders {o : CallOptions} {headers : Metadata} (h : o.Kept headers)
    (timeout : Option Nanoseconds) : o.Kept (prepareHeaders headers timeout) := by
  rw [prepareHeaders_eq]
  exact ((h.set (by decide) _).setDefault _ _).setIf (by decide) _

end Connect

theorem Grpc.timeoutOf_setIf {p : Protocol} (hp : p = .grpc ∨ p = .grpcWeb) {headers : Metadata}
    (empty : headers.values FieldName.grpcTimeout = []) (timeout : Option Nanoseconds) :
    Server.Request.timeoutOf p
        (headers.setIf FieldName.grpcTimeout (timeout.map Timeout.encodeScaled)) =
      .ok (timeout.map Timeout.toEightDigits) := by
  refine Server.Request.timeoutOf_grpc hp (Metadata.text?_setIf (by decide) ?_ empty)
  intro text h
  obtain ⟨t, -, rfl⟩ := Option.map_eq_some_iff.mp h
  exact Timeout.isVisible_encodeScaled t

section Enveloped

variable {c : ClientConfig σ} {o : CallOptions} {r : Http.Request}

theorem visible_name (visible : ∀ t ∈ c.compression, IsVisible t.pool.name) :
    ∀ name ∈ c.compression.map fun t => t.pool.name, IsVisible name := by
  intro name h
  obtain ⟨t, ht, rfl⟩ := Option.map_eq_some_iff.mp h
  exact visible t ht

theorem Connect.posted_streamRequest (connect : c.family = .connect)
    (visible : ∀ t ∈ c.compression, IsVisible t.pool.name) (callee : Method) (body : Bytes) :
    Posted c o .connectStream (c.compression.map fun t => t.pool.name)
      (streamRequest c { c.baseRequest callee o with body }) := by
  refine ⟨rfl, rfl, ?_, ?_, ?_⟩
  · show (streamRequest c _).headers.text? FieldName.connectContentEncoding = _
    rw [headers_streamRequest,
      Metadata.text?_eq_of_values (Metadata.values_setIf_of_ne (by decide) _)]
    refine Metadata.text?_setIf (by decide) (visible_name visible) ?_
    rw [values_prepareHeaders_of_ne (by decide) (by decide) (by decide)]
    exact o.values_ownHeaders (by decide)
  · have written : c.family.writtenTimeout = Timeout.toMilliseconds := by rw [connect]; rfl
    rw [written, headers_streamRequest]
    -- the fields that are set last have nothing to do with the timeout
    refine (Server.Request.timeoutOf_congr ?_).trans (timeoutOf_prepareHeaders (.inr rfl)
      (o.values_ownHeaders (by decide)) (o.timeout.or c.timeout))
    intro name hname
    simp only [List.mem_cons, List.not_mem_nil, or_false] at hname
    rcases hname with rfl | rfl | rfl <;>
      rw [Metadata.values_setIf_of_ne (by decide), Metadata.values_setIf_of_ne (by decide)] <;> rfl
  · rw [headers_streamRequest]
    exact ((kept_prepareHeaders o.kept_ownHeaders _).setIf (by decide) _).setIf (by decide) _

theorem Grpc.posted_prepare (grpc : c.family = .grpc)
    (visible : ∀ t ∈ c.compression, IsVisible t.pool.name) (callee : Method) (body : Bytes) :
    Posted c o .grpc (c.compression.map fun t => t.pool.name)
      (prepare c { c.baseRequest callee o with body }) := by
  refine ⟨rfl, rfl, ?_, ?_, ?_⟩
  · show (prepareHeaders c _ _).text? FieldName.grpcEncoding = _
    rw [prepareHeaders_eq,
      Metadata.text?_eq_of_values (Metadata.values_setIf_of_ne (by decide) _),
      Metadata.text?_eq_of_values (Metadata.values_setIf_of_ne (by decide) _)]
    refine Metadata.text?_setIf (by decide) (visible_name visible) ?_
    rw [Metadata.values_setDefault_of_ne (by decide), Metadata.values_set_of_ne (by decide)]
    exact o.values_ownHeaders (by decide)
  · have written : c.family.writtenTimeout = Timeout.toEightDigits := by rw [grpc]; rfl
    show Server.Request.timeoutOf .grpc (prepareHeaders c _ _) = _
    rw [written, prepareHeaders_eq]
    refine timeoutOf_setIf (.inl rfl) ?_ _
    rw [Metadata.values_setIf_of_ne (by decide), Metadata.values_setIf_of_ne (by decide),
      Metadata.values_setDefault_of_ne (by decide), Metadata.values_set_of_ne (by decide)]
    exact o.values_ownHeaders (by decide)
  · show o.Kept (prepareHeaders c _ _)
    rw [prepareHeaders_eq]
    exact ((((o.kept_ownHeaders.set (by decide) _).setDefault _ _).setIf (by decide) _).setIf
      (by decide) _).setIf (by decide) _

theorem Grpc.posted_prepareWeb (grpcWeb : c.family = .grpcWeb)
    (visible : ∀ t ∈ c.compression, IsVisible t.pool.name) (callee : Method) (body : Bytes) :
    Posted c o .grpcWeb (c.compression.map fun t => t.pool.name)
      (prepareWeb c { c.baseRequest callee o with body }) := by
  refine ⟨rfl, rfl, ?_, ?_, ?_⟩
  · show (prepareWebHeaders c _ _).text? FieldName.grpcEncoding = _
    rw [prepareWebHeaders_eq,
      Metadata.text?_eq_of_values (Metadata.values_setIf_of_ne (by decide) _)]
    refine Metadata.text?_setIf (by decide) (visible_name visible) ?_
    rw [Metadata.values_setDefault_of_ne (by decide)]
    exact o.values_ownHeaders (by decide)
  · have written : c.family.writtenTimeout = Timeout.toEightDigits := by rw [grpcWeb]; rfl
    show Server.Request.timeoutOf .grpcWeb (prepareWebHeaders c _ _) = _
    rw [written, prepareWebHeaders_eq]
    refine timeoutOf_setIf (.inr rfl) ?_ _
    rw [Metadata.values_setIf_of_ne (by decide), Metadata.values_setDefault_of_ne (by decide)]
    exact o.values_ownHeaders (by decide)
  · show o.Kept (prepareWebHeaders c _ _)
    rw [prepareWebHeaders_eq]
    exact ((o.kept_ownHeaders.setDefault _ _).setIf (by decide) _).setIf (by decide) _

/-- The request that opens a stream, and that of a unary call whose message is in an envelope. -/
theorem posted_openingRequest (visible : ∀ t ∈ c.compression, IsVisible t.pool.name)
    (callee : Method) (o : CallOptions) (body : Bytes) :
    Posted c o (c.family.protocol true) (c.compression.map fun t => t.pool.name)
      (openingRequest c { c.baseRequest callee o with body }) := by
  unfold openingRequest
  cases hf : c.family with
  | connect => exact Connect.posted_streamRequest hf visible callee body
  | grpc => exact Grpc.posted_prepare hf visible callee body
  | grpcWeb => exact Grpc.posted_prepareWeb hf visible callee body

end Enveloped

/-! ## Connect without envelopes -/

namespace Connect

/-- A body that is sent as it is or as a pool has compressed it, and the name of that pool. -/
def Compressed (t : Option Threshold) (body packed : Bytes) (name : Option String) : Prop :=
  (name = none ∧ packed = body) ∨
    ∃ th ∈ t, name = some th.pool.name ∧ th.pool.compress body = .ok packed

/-- A body is sent compressed and named, or as it is and unnamed. -/
theorem compressed_of_compress {t : Option Threshold} {body packed : Bytes} {name : Option String}
    (h : compress body t = .ok (packed, name)) : Compressed t body packed name := by
  unfold compress at h
  cases hs : t.bind fun t => t.select? body with
  | none =>
    rw [hs] at h
    cases h
    exact .inl ⟨rfl, rfl⟩
  | some pool =>
    obtain ⟨th, hth, -, rfl⟩ := Envelope.select?_eq_some_iff.mp hs
    rw [hs] at h
    cases hp : th.pool.compress body with
    | error reason =>
      simp only [hp] at h
      cases h
    | ok bytes =>
      simp only [hp] at h
      cases h
      exact .inr ⟨th, hth, rfl, hp⟩

theorem compress_ok {t : Option Threshold} {body : Bytes}
    (total : ∀ th ∈ t, ∃ packed, th.pool.compress body = .ok packed) :
    ∃ packed name, compress body t = .ok (packed, name) ∧ Compressed t body packed name := by
  have sent : ∃ sent, compress body t = .ok sent := by
    unfold compress
    cases hs : t.bind fun t => t.select? body with
    | none => exact ⟨_, rfl⟩
    | some pool =>
      obtain ⟨th, hth, -, rfl⟩ := Envelope.select?_eq_some_iff.mp hs
      obtain ⟨packed, hpacked⟩ := total th hth
      simp only [hpacked]
      exact ⟨_, rfl⟩
  obtain ⟨⟨packed, name⟩, sent⟩ := sent
  exact ⟨packed, name, sent, compressed_of_compress sent⟩

/-- A request with the headers that do not depend on how its message is sent. -/
def readied (c : ClientConfig σ) (r : Http.Request) : Http.Request :=
  { r with
    headers := (prepareHeaders r.headers r.timeout).setIf FieldName.acceptEncoding c.pools.accept?
    contentType := Protocol.connect.contentType c.encoding.name }

/-- A request with its message as the body. -/
def toPost (r : Http.Request) (body : Bytes) (name : Option String) : Http.Request :=
  { r with
    headers := r.headers.setIf FieldName.contentEncoding name
    body := body }

/-- A unary request goes one of two ways, after its message has been compressed. -/
theorem unaryRequest_eq (c : ClientConfig σ) (r : Http.Request) :
    unaryRequest c r = (compress r.body c.compression).map fun sent =>
      if usesGet c.get r.callee sent.1 then toGet (readied c r) sent.1 sent.2 c.encoding
      else toPost (readied c r) sent.1 sent.2 := by
  unfold unaryRequest
  rw [advertise_eq]
  simp only [bind, Except.bind]
  cases compress r.body c.compression with
  | error cause => rfl
  | ok sent =>
    obtain ⟨packed, name⟩ := sent
    dsimp only [Except.map]
    split
    · rfl
    · cases name <;> rfl

/-- The request of a unary call before it says how its body is compressed. -/
def prepared (c : ClientConfig σ) (callee : Method) (o : CallOptions) : Http.Request :=
  { c.baseRequest callee o with
    headers := (prepareHeaders o.ownHeaders (o.timeout.or c.timeout)).setIf FieldName.acceptEncoding
      c.pools.accept?
    contentType := Protocol.connect.contentType c.encoding.name }

/-- A call that the policy allows is sent in the query of a GET request. -/
theorem unaryRequest_get {c : ClientConfig σ} {callee : Method} {o : CallOptions}
    {body packed : Bytes} {name : Option String}
    (h : compress body c.compression = .ok (packed, name))
    (get : usesGet c.get callee packed = true) :
    unaryRequest c { c.baseRequest callee o with body } =
      .ok (toGet (prepared c callee o) packed name c.encoding) := by
  rw [unaryRequest_eq, h]
  exact congrArg Except.ok (if_pos get)

/-- Every other call is sent in the body of a POST request. -/
theorem unaryRequest_post {c : ClientConfig σ} {callee : Method} {o : CallOptions}
    {body packed : Bytes} {name : Option String}
    (h : compress body c.compression = .ok (packed, name))
    (post : usesGet c.get callee packed = false) :
    unaryRequest c { c.baseRequest callee o with body } =
      .ok (toPost (prepared c callee o) packed name) := by
  have other : ¬ usesGet c.get callee packed = true := by rw [post]; decide
  rw [unaryRequest_eq, h]
  exact congrArg Except.ok (if_neg other)

theorem kept_prepared (c : ClientConfig σ) (callee : Method) (o : CallOptions) :
    o.Kept (prepared c callee o).headers :=
  (kept_prepareHeaders o.kept_ownHeaders _).setIf (by decide) _

/-- A Connect request with a body that is not in an envelope. -/
theorem posted_unaryRequest {c : ClientConfig σ} (connect : c.family = .connect)
    {name : Option String} (visible : ∀ n ∈ name, IsVisible n) (callee : Method) (o : CallOptions)
    (body : Bytes) :
    Posted c o .connect name (toPost (prepared c callee o) body name) := by
  refine ⟨rfl, rfl, ?_, ?_, (kept_prepared c callee o).setIf (by decide) _⟩
  · refine Metadata.text?_setIf (by decide) visible ?_
    unfold prepared
    rw [Metadata.values_setIf_of_ne (by decide),
      values_prepareHeaders_of_ne (by decide) (by decide) (by decide)]
    exact o.values_ownHeaders (by decide)
  · have written : c.family.writtenTimeout = Timeout.toMilliseconds := by rw [connect]; rfl
    rw [written]
    refine (Server.Request.timeoutOf_congr ?_).trans (timeoutOf_prepareHeaders (.inl rfl)
      (o.values_ownHeaders (by decide)) (o.timeout.or c.timeout))
    intro field hfield
    unfold toPost prepared
    simp only [List.mem_cons, List.not_mem_nil, or_false] at hfield
    rcases hfield with rfl | rfl | rfl <;>
      rw [Metadata.values_setIf_of_ne (by decide), Metadata.values_setIf_of_ne (by decide)]

/-- The headers of a GET still say when it times out, and have what the caller has set. -/
theorem headers_toGet {c : ClientConfig σ} (connect : c.family = .connect) (callee : Method)
    (o : CallOptions) (packed : Bytes) (name : Option String) :
    Server.Request.timeoutOf .connect
        (toGet (prepared c callee o) packed name c.encoding).headers =
        .ok ((o.timeout.or c.timeout).map c.family.writtenTimeout) ∧
      o.Kept (toGet (prepared c callee o) packed name c.encoding).headers := by
  have written : c.family.writtenTimeout = Timeout.toMilliseconds := by rw [connect]; rfl
  rw [written]
  constructor
  · -- the fields of a body are taken off the headers, and the version moves into the query
    have timeout : (toGet (prepared c callee o) packed name c.encoding).headers.values
        FieldName.connectTimeout = (prepareHeaders o.ownHeaders
          (o.timeout.or c.timeout)).values FieldName.connectTimeout := by
      unfold toGet prepared
      rw [Metadata.values_erase, if_neg (by decide), Metadata.values_erase, if_neg (by decide),
        Metadata.values_setIf_of_ne (by decide)]
    have version : (toGet (prepared c callee o) packed name c.encoding).headers.values
        FieldName.connectVersion = [] := by
      unfold toGet
      rw [Metadata.values_erase, if_neg (by decide), Metadata.values_erase, if_pos rfl]
    refine Server.Request.timeoutOf_connect (.inl rfl) ?_ ?_
    · rw [Metadata.text?_eq_of_values timeout]
      exact text?_timeout_prepareHeaders (o.values_ownHeaders (by decide)) _
    · rw [Metadata.text?_of_values_nil version]
      intro v hv
      nomatch hv
  · exact ((kept_prepared c callee o).erase (by decide)).erase (by decide)

end Connect

end RpcWire
