import RpcWire.Call.Protocol
import RpcWire.Call.Timeout
import RpcWire.Coding.Registry
import RpcWire.Frame.Envelope
import RpcWire.Http.Wire
import RpcWire.Status.Failure
import RpcWire.Text.Base64

/-!
# Requests at the server

A server reads an HTTP request in one go: the protocol from the method and the
media type, the procedure from the path, the timeout, the codec and the
compression from headers or the query, and the messages from the body or the
query.

* `Server.Request` — the call that an HTTP request makes;
* `Server.Request.parse` — reads it.
-/

namespace RpcWire.Server

/-- How a server compresses. -/
structure Compression where
  pools : Registry
  /-- Compress responses of at least this length; none are compressed without it. -/
  minBytes : Option Nat

/-- A call that is asked for. -/
structure Request where
  protocol : Protocol
  service : String
  method : String
  codec : String
  contentType : String
  headers : Metadata
  timeout : Option Nanoseconds
  /-- The compression of the request, if there is any. -/
  compression : Option String
  /-- The messages in order, as they were before they were compressed. -/
  messages : List Bytes

namespace Request

/-- The service and the method with a slash between them. -/
def procedure (r : Request) : String := r.service ++ "/" ++ r.method

/-- The first message, empty if there is none. -/
def message (r : Request) : Bytes := r.messages.head?.getD []

/-! ## The parts of a request -/

/-- The protocol of a request. -/
def protocolOf (verb : String) (contentType : Option String) : Except Failure Protocol :=
  match Protocol.detect? verb contentType with
  | some protocol => .ok protocol
  | none => .error (.new .invalidArgument
      ("unsupported request: " ++ verb ++ " with content-type " ++ contentType.getD "<none>"))

/-- The service and the method that a path names: what stands before and after its last slash,
slashes in front apart. -/
def procedureOf (path : String) : Except Failure (String × String) :=
  let cs := path.toList.dropWhile (· == '/')
  let refusal : Failure := .new .invalidArgument ("invalid procedure path: " ++ String.ofList cs)
  match Text.cutLast? '/' cs with
  | some (service, method) =>
    if service = [] ∨ method = [] then .error refusal
    else .ok (String.ofList service, String.ofList method)
  | none => .error refusal

/-- The timeout in the headers. One that cannot be read counts as none; a Connect version other
than the first is refused. -/
def timeoutOf (protocol : Protocol) (headers : Metadata) : Except Failure (Option Nanoseconds) :=
  match protocol with
  | .grpc | .grpcWeb => .ok ((headers.text? FieldName.grpcTimeout).bind Timeout.parseScaled?)
  | .connect | .connectStream =>
    let timeout := (headers.text? FieldName.connectTimeout).bind Timeout.parseMilliseconds?
    match headers.text? FieldName.connectVersion with
    | some version =>
      if version = "1" then .ok timeout
      else .error (.new .invalidArgument ("unsupported connect protocol version: " ++ version))
    | none => .ok timeout

/-- The codec of a media type: what follows its first plus sign, parameters apart. -/
def codecOf (contentType : String) : String :=
  let base := Text.trim (contentType.toList.takeWhile (· != ';'))
  let subtype := (Text.stripStart? "application/" base).getD base
  match Text.cutFirst? '+' subtype with
  | some (_, codec) => String.ofList codec
  | none =>
    let subtype := String.ofList subtype
    if subtype = "grpc" ∨ subtype = "grpc-web" then "proto" else subtype

/-- The pool of a name. Without a name nothing is compressed; a name must be registered. -/
def poolOf (name : Option String) (pools : Registry) : Except Failure (Option Pool) :=
  match name with
  | none => .ok none
  | some name =>
    if name = "" ∨ name = Registry.identity then .ok none
    else match pools.find? name with
      | some pool => .ok (some pool)
      | none => .error (.new .unimplemented ("unsupported compression: " ++ name))

/-- A whole payload as it was before it was compressed. -/
def expand (pool : Option Pool) (payload : Bytes) : Except Failure Bytes :=
  match pool with
  | none => .ok payload
  | some pool => (pool.decompress payload).mapError fun reason =>
      .ofCause .invalidArgument (.io reason)

/-- The payloads of all frames of a body. -/
def payloads (pool : Option Pool) (body : Bytes) : Except Failure (List Bytes) :=
  if _hne : body = [] then .ok []
  else match _h : Envelope.unpack body pool with
    | (_, .error fault) => .error (.ofFrame fault)
    | (rest, .ok envelope) => (payloads pool rest).map (envelope.payload :: ·)
termination_by body.length
decreasing_by exact Envelope.length_unpack_ok _hne _h

/-! ## Queries -/

/-- What the query of a GET says. -/
structure Query where
  message : Option String
  base64 : Bool
  encoding : Option String
  compression : Option String
  deriving DecidableEq, Repr

/-- Takes one parameter into account: a key, and perhaps an equals sign and a value. Of a repeated
key the last value counts; a version other than the first is refused. -/
def Query.absorb (q : Query) (parameter : List Char) : Except Failure Query :=
  let (key, value) := (Text.cutFirst? '=' parameter).getD (parameter, [])
  let value := String.ofList value
  match String.ofList key with
  | "message" => .ok { q with message := some value }
  | "base64" => .ok { q with base64 := value == "1" }
  | "encoding" => .ok { q with encoding := some value }
  | "compression" => .ok { q with compression := some value }
  | "connect" =>
    if value = "v1" then .ok q
    else .error (.new .invalidArgument ("unsupported connect version: " ++ value))
  | _ => .ok q

/-- Reads a query. -/
def Query.parse (query : String) : Except Failure Query :=
  ((query.toList.splitOn '&').filter (· ≠ [])).foldlM Query.absorb ⟨none, false, none, none⟩

/-- The message of a query as octets. -/
def Query.payload (q : Query) : Except Failure Bytes :=
  let text := q.message.getD ""
  if q.base64 then
    match Base64.decodeEither? .urlSafe text.toList with
    | some octets => .ok octets
    | none => .error (.ofCause .invalidArgument .base64)
  else .ok (Utf8.encode text)

/-! ## Whole requests -/

/-- The call that a GET makes, given what it shares with other calls. -/
def parseQuery (call : Request) (query : String) (pools : Registry) : Except Failure Request := do
  let q ← Query.parse query
  match q.encoding with
  | none => .error (.new .invalidArgument "missing encoding query parameter")
  | some encoding =>
    let raw ← q.payload
    let pool ← poolOf q.compression pools
    let message ← expand pool raw
    .ok { call with
      codec := encoding
      contentType := "application/" ++ encoding
      compression := pool.map Pool.name
      messages := [message] }

/-- The call that a request with a body makes. -/
def parseBody (call : Request) (body : Bytes) (pools : Registry) : Except Failure Request := do
  let pool ← poolOf (call.headers.text? call.protocol.encodingField) pools
  let messages ←
    if call.protocol.isEnveloped then payloads pool body
    else (expand pool body).map fun message => [message]
  .ok { call with
    codec := codecOf call.contentType
    compression := pool.map Pool.name
    messages }

/-- The call that an HTTP request makes. -/
def parse (r : Http.WireRequest) (compression : Compression) : Except Failure Request := do
  let contentType := r.headers.text? FieldName.contentType
  let protocol ← protocolOf r.verb contentType
  let (service, method) ← procedureOf r.target.path
  let timeout ← timeoutOf protocol r.headers
  let call : Request :=
    { protocol, service, method, timeout
      codec := ""
      contentType := contentType.getD ""
      headers := r.headers
      compression := none
      messages := [] }
  if r.verb = "GET" then parseQuery call (r.target.query.getD "") compression.pools
  else parseBody call r.body compression.pools

end Request

end RpcWire.Server
