import RpcWire.Client.Config
import RpcWire.Client.MediaType
import RpcWire.Frame.Trailers
import RpcWire.Status.Completion

/-!
# gRPC and gRPC-Web at the client

Both send every message in an envelope and report how a call ended by a status
in the trailers. The trailers of gRPC are those of HTTP; the trailers of
gRPC-Web are the last frame of the body. A response without a body may carry
its status in the headers.
-/

namespace RpcWire.Grpc

variable {σ : Type}

/-- What the client calls itself. -/
def agent : String := "grpc-rust-connect/0.1.0"

/-! ## Requests -/

/-- The name of the compression of the request among the headers. -/
def nameEncoding (headers : Metadata) (t : Option Threshold) : Metadata :=
  match t with
  | some t => headers.set FieldName.grpcEncoding t.pool.name
  | none => headers

/-- The timeout among the headers. -/
def nameTimeout (headers : Metadata) (timeout : Option Nanoseconds) : Metadata :=
  match timeout with
  | some t => headers.set FieldName.grpcTimeout (Timeout.encodeScaled t)
  | none => headers

def prepareHeaders (c : ClientConfig σ) (headers : Metadata) (timeout : Option Nanoseconds) :
    Metadata :=
  let headers := headers.set FieldName.transferCodings "trailers"
  let headers := headers.setDefault FieldName.userAgent agent
  let headers := nameEncoding headers c.compression
  let headers := match c.pools.accept? with
    | some accept => headers.set FieldName.grpcAcceptEncoding accept
    | none => headers
  nameTimeout headers timeout

def prepareWebHeaders (c : ClientConfig σ) (headers : Metadata) (timeout : Option Nanoseconds) :
    Metadata :=
  nameTimeout (nameEncoding (headers.setDefault FieldName.extraUserAgent agent) c.compression)
    timeout

/-- The request of a call, without its body. -/
def prepare (c : ClientConfig σ) (r : Http.Request) : Http.Request :=
  { r with
    headers := prepareHeaders c r.headers r.timeout
    contentType := Protocol.grpc.contentType c.encoding.name }

@[inherit_doc prepare]
def prepareWeb (c : ClientConfig σ) (r : Http.Request) : Http.Request :=
  { r with
    headers := prepareWebHeaders c r.headers r.timeout
    contentType := Protocol.grpcWeb.contentType c.encoding.name }

def packMessage (c : ClientConfig σ) (message : Bytes) : Except Failure Bytes :=
  (Envelope.pack message c.compression).mapError Failure.ofFrame

/-- The request of a unary call, its message in an envelope. -/
def packBody (c : ClientConfig σ) (r : Http.Request) : Except Failure Http.Request :=
  (packMessage c r.body).map fun body => { r with body }

/-! ## Unary responses -/

/-- There has to be a message. -/
def noMessages : Failure := .new .unimplemented "unary stream has no messages"

/-- There must not be more than one message. -/
def multipleMessages : Failure := .new .unimplemented "unary stream has multiple messages"

/-- The one message of a body. -/
def singleMessage (pool : Option Pool) (body : Bytes) : Except Failure Bytes :=
  if body = [] then .error noMessages
  else do
    let (rest, e) ← Protocol.grpc.takeFrame body pool
    if rest = [] then .ok e.payload else .error multipleMessages

/-- A completion has to be a success. -/
def checkCompletion (c : Completion) : Except Failure Unit :=
  match c.failure? with
  | some cause => .error cause
  | none => .ok ()

/-- Checks the HTTP status and the media type of a response. -/
def checkHead (p : Protocol) (e : Encoding) (status : Nat) (headers : Metadata) :
    Except Failure Unit :=
  if status ≠ 200 then .error (.ofHttpStatus status headers) else p.checkType e headers

/-- The pool that a response names. -/
def poolOf (c : ClientConfig σ) (headers : Metadata) : Option Pool :=
  c.pools.resolve? (headers.text? FieldName.grpcEncoding)

/-- The message of a gRPC response that arrived. -/
def outcome (c : ClientConfig σ) (status : Nat) (r : Http.Response) : Except Failure Bytes := do
  checkHead .grpc c.encoding status r.headers
  checkCompletion (.parse r.headers (r.body != []) r.trailers)
  singleMessage (poolOf c r.headers) r.body

/-- Reads a response that arrived, as its protocol says. -/
def readResponse (read : Nat → Http.Response → Http.Response) (r : Http.Response) :
    Http.Response :=
  match r.cause, r.status with
  | some _, _ => r
  | none, none => r.withFailure (.new .unknown "response has no status")
  | none, some status => read status r

/-- The response with its message or its failure. -/
def conclude (r : Http.Response) : Except Failure Bytes → Http.Response
  | .ok body => { r with body }
  | .error cause => r.withFailure cause

def unaryResponse (c : ClientConfig σ) : Http.Response → Http.Response :=
  readResponse fun status r => conclude r (outcome c status r)

/-! ## Unary responses of gRPC-Web -/

/-- What a body of gRPC-Web holds: at most one message, and the trailers. -/
structure WebBody where
  message : Option Bytes
  trailers : Metadata
  deriving DecidableEq

/-- Whether a frame holds trailers. -/
def isTrailers (e : Envelope) : Bool := e.has Envelope.trailersFlag

/-- The message and the trailers that frames hold, nothing being left after them. -/
def WebBody.close (message : Option Bytes) (rest : Bytes) (last : Envelope) :
    Except Failure WebBody :=
  if rest = [] then .ok ⟨message, TrailerText.parse last.payload⟩
  else .error (.new .internal "protocol error: data after end-of-stream")

/-- Reads a body that is not empty. -/
def WebBody.parse (pool : Option Pool) (body : Bytes) : Except Failure WebBody := do
  let (rest, first) ← Protocol.grpcWeb.takeFrame body pool
  if isTrailers first then close none rest first
  else if rest = [] then .error (.new .internal "protocol error: missing end-of-stream message")
  else do
    let (rest, second) ← Protocol.grpcWeb.takeFrame rest pool
    if isTrailers second then close (some first.payload) rest second
    else .error multipleMessages

/-- The message that a body holds, if the call succeeded. -/
def WebBody.outcome (b : WebBody) (headers : Metadata) : Except Failure Bytes := do
  checkCompletion (.parse headers b.message.isSome b.trailers)
  match b.message with
  | some message => .ok message
  | none => .error noMessages

/-- The response of a unary gRPC-Web call that arrived. The trailers of the body replace those of
HTTP. -/
def readWeb (c : ClientConfig σ) (status : Nat) (r : Http.Response) : Http.Response :=
  match checkHead .grpcWeb c.encoding status r.headers with
  | .error cause => r.withFailure cause
  | .ok _ =>
    if r.body = [] then
      r.withFailure (((Completion.parse r.headers false r.trailers).failure?).getD noMessages)
    else match WebBody.parse (poolOf c r.headers) r.body with
      | .error cause => r.withFailure cause
      | .ok parts => conclude { r with trailers := parts.trailers } (parts.outcome r.headers)

def unaryWebResponse (c : ClientConfig σ) : Http.Response → Http.Response :=
  readResponse (readWeb c)

/-! ## Streams -/

/-- What has been seen of a stream. -/
structure StreamState where
  /-- The pool that the headers name. -/
  pool : Option Pool
  headers : Metadata
  seenMessage : Bool

def StreamState.fresh : StreamState := ⟨none, .empty, false⟩

/-- The end of a stream that its trailers, or its headers if there was nothing else, report. -/
def completeFrom (s : StreamState) (trailers : Metadata) : Event Bytes :=
  let completion := Completion.parse s.headers s.seenMessage trailers
  .complete completion.failure? (if completion.trailersOnly then s.headers else trailers)

def streamHeaders (p : Protocol) (c : ClientConfig σ) (s : StreamState) (headers : Metadata) :
    Event Bytes × StreamState :=
  match p.checkType c.encoding headers with
  | .error cause => (.fail cause, s)
  | .ok _ => (.headers headers, { s with pool := poolOf c headers, headers })

/-- An event of a gRPC or gRPC-Web stream. A frame of trailers ends a stream of gRPC-Web; gRPC
knows no such frames. -/
def streamEvent (p : Protocol) (c : ClientConfig σ) (s : StreamState) :
    Event Bytes → Event Bytes × StreamState
  | .headers headers => streamHeaders p c s headers
  | .message buffer =>
    match p.takeFrame buffer s.pool with
    | .error cause => (.fail cause, s)
    | .ok (_, e) =>
      if p = .grpcWeb ∧ isTrailers e then (completeFrom s (TrailerText.parse e.payload), s)
      else (.message e.payload, { s with seenMessage := true })
  | e@(.complete (some _) _) => (e, s)
  | .complete none trailers => (completeFrom s trailers, s)

end RpcWire.Grpc
