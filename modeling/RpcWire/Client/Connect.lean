import RpcWire.Client.Config
import RpcWire.Client.MediaType
import RpcWire.Status.Json
import RpcWire.Text.Base64

/-!
# Connect at the client

A unary call sends its message as the whole body, or in the query of a GET if
the method has no side effects and the client's policy allows it. Its failure
is a JSON body under an HTTP status of its own, and its trailers are headers
with a stem.

A stream sends envelopes and ends with a frame that holds the failure, if there
is one, and the trailers.
-/

namespace RpcWire.Connect

variable {σ : Type}

/-- What the client calls itself. -/
def agent : String := "connect-rust/0.1.0"

/-- The headers that all requests have. -/
def prepareHeaders (headers : Metadata) (timeout : Option Nanoseconds) : Metadata :=
  let headers := headers.set FieldName.connectVersion "1"
  let headers := headers.setDefault FieldName.userAgent agent
  match timeout with
  | some t => headers.set FieldName.connectTimeout (Timeout.encodeMilliseconds t)
  | none => headers

/-- The headers with what the client accepts. -/
def advertise (headers : Metadata) (field : String) (pools : Registry) : Metadata :=
  match pools.accept? with
  | some accept => headers.set field accept
  | none => headers

/-! ## Unary requests -/

/-- A body as it is sent: compressed, with the name of the pool, if the threshold asks for it. -/
def compress (body : Bytes) (t : Option Threshold) : Except Failure (Bytes × Option String) :=
  match t.bind fun t => t.select? body with
  | some pool =>
    match pool.compress body with
    | .ok packed => .ok (packed, some pool.name)
    | .error reason => .error (.ofCause .internal (.io reason))
  | none => .ok (body, none)

/-- The query that carries a message, its parameters in the order of their keys. -/
def query (body : Bytes) (pool : Option String) (e : Encoding) : String :=
  let compression := match pool with
    | some name => ["compression=" ++ name]
    | none => []
  String.intercalate "&" (["base64=1"] ++ compression ++ ["connect=v1", "encoding=" ++ e.name,
    "message=" ++ String.ofList (Base64.encode .urlSafe .bare body)])

/-- The request as a GET. The query says what some headers said. -/
def toGet (r : Http.Request) (body : Bytes) (pool : Option String) (e : Encoding) :
    Http.Request :=
  { r with
    url := r.url ++ "?" ++ query body pool e
    verb := "GET"
    body := []
    contentType := Protocol.connect.contentType e.name
    headers := (r.headers.erase FieldName.connectVersion).erase FieldName.contentEncoding }

/-- Whether a message is sent as a GET. -/
def usesGet (policy : GetPolicy) (callee : Method) (body : Bytes) : Bool :=
  callee.isSafe && policy.allows body.length

def unaryRequest (c : ClientConfig σ) (r : Http.Request) : Except Failure Http.Request := do
  let headers := advertise (prepareHeaders r.headers r.timeout) FieldName.acceptEncoding c.pools
  let r := { r with headers, contentType := Protocol.connect.contentType c.encoding.name }
  let (body, pool) ← compress r.body c.compression
  if usesGet c.get r.callee body then .ok (toGet { r with body := [] } body pool c.encoding)
  else
    let headers := match pool with
      | some name => r.headers.set FieldName.contentEncoding name
      | none => r.headers
    .ok { r with headers, body }

/-! ## Unary responses -/

/-- Moves one header to the headers or the trailers of the call. A value that is no visible text
is dropped. -/
def sortField (parts : Metadata × Metadata) (f : Field) : Metadata × Metadata :=
  match visibleText? f.value with
  | none => parts
  | some text =>
    match Text.stripStart? FieldName.trailerStem f.name.toList with
    | some name => (parts.1, parts.2.add (String.ofList name) text)
    | none => (parts.1.add f.name text, parts.2)

/-- The headers and the trailers that the headers of a response make, after given trailers. -/
def splitTrailers (headers trailers : Metadata) : Metadata × Metadata :=
  headers.fields.foldl sortField (.empty, trailers)

/-- The failure that a body reports under an HTTP status. A body that is no failure is quoted. -/
def reportedFailure (status : Nat) (body : Bytes) : Failure :=
  match Failure.parseJson? body with
  | some f => f
  | none =>
    let text := Utf8.decodeCharsLossy body
    let message :=
      if Text.trim text = [] then "HTTP status " ++ toString status else String.ofList text
    (Failure.new (Code.ofHttpStatus status) message).withCause .json

/-- The body as it was before it was compressed. -/
def expand (pool : Option Pool) (body : Bytes) : Except Failure Bytes :=
  match pool with
  | none => .ok body
  | some pool => (pool.decompress body).mapError fun reason => .ofCause .internal (.io reason)

/-- What a response that arrived means: its message or its failure. -/
def outcome (c : ClientConfig σ) (status : Nat) (headers trailers : Metadata) (body : Bytes) :
    Except Failure Bytes := do
  let pool := c.pools.resolve? (headers.text? FieldName.contentEncoding)
  let body ← expand pool body
  if status ≠ 200 then
    .error ((reportedFailure status body).withMetadata (headers.merge trailers))
  else do
    Protocol.connect.checkType c.encoding headers
    .ok body

def unaryResponse (c : ClientConfig σ) (r : Http.Response) : Http.Response :=
  match r.cause, r.status with
  | some _, _ => r
  | none, none => r.withFailure (.new .unknown "response has no status")
  | none, some status =>
    let (headers, trailers) := splitTrailers r.headers r.trailers
    match outcome c status headers trailers r.body with
    | .ok body => ⟨some status, headers, body, trailers, none⟩
    | .error cause => ⟨some status, headers, [], trailers, some cause⟩

/-! ## Streams -/

def streamRequest (c : ClientConfig σ) (r : Http.Request) : Http.Request :=
  let headers := prepareHeaders r.headers r.timeout
  let headers := match c.compression with
    | some t => headers.set FieldName.connectContentEncoding t.pool.name
    | none => headers
  { r with
    headers := advertise headers FieldName.connectAcceptEncoding c.pools
    contentType := Protocol.connectStream.contentType c.encoding.name }

/-- An event of a stream, given the pool of its messages: what it means, and the pool from then
on. -/
def streamEvent (c : ClientConfig σ) (pool : Option Pool) :
    Event Bytes → Event Bytes × Option Pool
  | .headers headers =>
    match Protocol.connectStream.checkType c.encoding headers with
    | .error cause => (.fail cause, pool)
    | .ok _ =>
      (.headers headers, c.pools.resolve? (headers.text? FieldName.connectContentEncoding))
  | .message buffer =>
    match Protocol.connectStream.takeFrame buffer pool with
    | .error cause => (.fail cause, pool)
    | .ok (_, e) =>
      if e.has Envelope.endStreamFlag then
        match EndOfStream.parse? e.payload with
        | some last => (.complete last.failure last.metadata, pool)
        | none => (.fail (.ofCause .unknown .json), pool)
      else (.message e.payload, pool)
  | e@(.complete _ _) => (e, pool)

end RpcWire.Connect
