import RpcWire.Frame.Splitter
import RpcWire.Server.Response

/-!
# Serving in process

A transport that hands every request to a server in the same process. What the
server cannot read, or cannot answer, fails as if the network had failed.

Nothing has to be legal on a wire here, so the media type of a request is added
to its headers as it is; a GET has none. Nor does a transport judge a response:
whatever its status and wherever its body ends, a stream is told what it holds.
-/

namespace RpcWire.Transport

/-- A server in the same process. -/
structure Service where
  compression : Server.Compression
  handler : Server.Request → Server.Response

/-- What a server makes of a request: the call it reads, and the response to it. -/
structure Served where
  call : Except Failure Server.Request
  response : Except Failure Http.WireResponse

namespace Service

/-- Serves a request on the wire. -/
def serve (s : Service) (wire : Http.WireRequest) : Served :=
  let call := Server.Request.parse wire s.compression
  ⟨call, call.bind fun request => (s.handler request).encode request s.compression⟩

/-- The headers of a client's request as the server sees them. -/
def headersOf (r : Http.Request) : Metadata :=
  if r.verb = "GET" then r.headers else r.headers.add FieldName.contentType r.contentType

/-- Serves a client's request with a given body. -/
def serveRequest (s : Service) (r : Http.Request) (body : Bytes) : Served :=
  match r.target.map fun target => (⟨r.verb, target, headersOf r, body⟩ : Http.WireRequest) with
  | .ok wire => s.serve wire
  | .error cause => ⟨.error cause, .error cause⟩

end Service

namespace Served

/-- The response that a call is given. -/
def toResponse (s : Served) : Http.Response :=
  match s.response with
  | .ok r => r.toResponse
  | .error cause => .failed cause

/-- The events that a stream is given: the headers under any status, every whole frame, and a
completion even if a part of a frame is left over. -/
def events (s : Served) : List (Event Bytes) :=
  match s.response with
  | .ok r =>
    .headers r.headers :: ((Envelope.splitWhole r.body).1.map .message ++
      [.complete none r.trailers])
  | .error cause => [.fail cause]

end Served

end RpcWire.Transport
