import RpcWire.Frame.Trailers
import RpcWire.Server.Request
import RpcWire.Status.Json
import RpcWire.Status.Record

/-!
# Responses at the server

What a handler comes to — messages, perhaps a failure, headers and trailers —
becomes an HTTP response in the protocol of the request:

* Connect: one message as the body, or the failure as JSON under its own HTTP
  status; trailers travel among the headers;
* Connect streams: enveloped messages, then a frame that ends the stream;
* gRPC: enveloped messages and a status in the trailers, or only headers if
  there is nothing but a failure;
* gRPC-Web: the same, the trailers as a last frame.
-/

namespace RpcWire.Server

/-- What a handler comes to. -/
structure Response where
  /-- The messages, of a failure those before it. -/
  messages : List Bytes
  failure : Option Failure
  headers : Metadata
  trailers : Metadata

namespace Response

def ofMessage (message : Bytes) : Response := ⟨[message], none, .empty, .empty⟩

def ofFailure (f : Failure) : Response := ⟨[], some f, .empty, .empty⟩

end Response

namespace Response

/-! ## Compression -/

/-- What to compress of the response, and how: nothing unless the server has a limit and knows a
pool that the peer accepts. -/
def thresholdFor (r : Request) (compression : Compression) : Option Threshold := do
  let minBytes ← compression.minBytes
  let pool ← compression.pools.negotiate? (r.headers.text? r.protocol.acceptField)
  some ⟨minBytes, pool⟩

/-- The headers with the name of the pool, if there is one. -/
def nameEncoding (headers : Metadata) (protocol : Protocol) (t : Option Threshold) : Metadata :=
  match t with
  | some t => headers.set protocol.encodingField t.pool.name
  | none => headers

/-- The frames of messages, one after another. -/
def packAll (messages : List Bytes) (t : Option Threshold) : Except Failure Bytes := do
  let frames ← messages.mapM fun m => (Envelope.pack m t).mapError Failure.ofFrame
  .ok frames.flatten

/-! ## Connect -/

/-- The headers with the visible trailers under their names after a stem. -/
def embedTrailers (headers trailers : Metadata) : Metadata :=
  trailers.fields.foldl (fun m f =>
    match visibleText? f.value with
    | some text => m.add (FieldName.trailerStem ++ f.name) text
    | none => m) headers

/-- The body of a successful unary call. A message that cannot be compressed is sent as it is. -/
def encodeMessage (message : Bytes) (headers : Metadata) (t : Option Threshold) :
    Http.WireResponse :=
  match t.bind fun t => t.select? message with
  | none => ⟨200, headers, message, .empty⟩
  | some pool =>
    match pool.compress message with
    | .ok packed => ⟨200, headers.set FieldName.contentEncoding pool.name, packed, .empty⟩
    | .error _ => ⟨200, headers, message, .empty⟩

/-- The response of a unary Connect call. -/
def encodeUnary (r : Response) (headers : Metadata) (t : Option Threshold) : Http.WireResponse :=
  let headers := embedTrailers headers r.trailers
  match r.failure with
  | some f =>
    ⟨f.code.httpStatus, headers.set FieldName.contentType "application/json", f.encodeJson, .empty⟩
  | none => encodeMessage (r.messages.head?.getD []) headers t

/-! ## gRPC -/

/-- The trailers with the status of the call. -/
def addStatus (trailers : Metadata) : Option Failure → Metadata
  | none => trailers.set FieldName.grpcStatus "0"
  | some f =>
    let trailers := trailers.set FieldName.grpcStatus (toString f.code.number)
    let trailers := match f.message with
      | some message => trailers.set FieldName.grpcMessage (Percent.encode message)
      | none => trailers
    if f.details = [] then trailers
    else trailers.set FieldName.grpcStatusRecord
      (StatusRecord.of f.code f.message f.details).toText

/-! ## All protocols -/

/-- The HTTP response to a request. It fails only if a message cannot be compressed. -/
def encode (r : Response) (request : Request) (compression : Compression) :
    Except Failure Http.WireResponse :=
  let protocol := request.protocol
  let t := thresholdFor request compression
  let headers := r.headers.set FieldName.contentType (protocol.contentType request.codec)
  match protocol with
  | .connect => .ok (encodeUnary r headers t)
  | .connectStream => do
    let frames ← packAll r.messages t
    let last := Envelope.frame Envelope.endStreamFlag (EndOfStream.mk r.failure r.trailers).encode
    .ok ⟨200, nameEncoding headers protocol t, frames ++ last, .empty⟩
  | .grpc => do
    let frames ← packAll r.messages t
    let headers := nameEncoding headers protocol t
    let trailers := addStatus r.trailers r.failure
    if frames = [] ∧ r.failure.isSome then .ok ⟨200, headers.merge trailers, [], .empty⟩
    else .ok ⟨200, headers, frames, trailers⟩
  | .grpcWeb => do
    let frames ← packAll r.messages t
    let trailers := addStatus r.trailers r.failure
    let last := Envelope.frame Envelope.trailersFlag (TrailerText.encode trailers)
    .ok ⟨200, nameEncoding headers protocol t, frames ++ last, .empty⟩

end Response

end RpcWire.Server
