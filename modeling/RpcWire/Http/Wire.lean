import RpcWire.FieldName
import RpcWire.Http.Request
import RpcWire.Http.Response
import RpcWire.Http.Target

/-!
# Requests and responses on the wire

What crosses the network in either direction. A client's request can be put on
the wire only if its URL and its media type are legal; the media type then
replaces any that is among the headers. A GET without a body has none.
-/

namespace RpcWire.Http

structure WireRequest where
  verb : String
  target : Target
  headers : Metadata
  body : Bytes

structure WireResponse where
  status : Nat
  headers : Metadata
  body : Bytes
  trailers : Metadata
  deriving DecidableEq

/-- The response that a client is given. -/
def WireResponse.toResponse (r : WireResponse) : Response :=
  .arrived r.status r.headers r.body r.trailers

/-- Whether a request has a media type on the wire. -/
def Request.isTyped (r : Request) : Bool := !(r.verb == "GET" && r.body.isEmpty)

/-- The headers of a request on the wire. -/
def Request.wireHeaders (r : Request) : Except Failure Metadata :=
  if r.isTyped then
    match r.headers.set? FieldName.contentType r.contentType with
    | some headers => .ok headers
    | none => .error (.new .internal ("invalid content-type: " ++ r.contentType))
  else .ok r.headers

def Request.target (r : Request) : Except Failure Target :=
  match Target.parse? r.url with
  | some target => .ok target
  | none => .error ((Failure.ofCause .invalidArgument .http).withMessage
      ("invalid request for " ++ r.url))

/-- A request on the wire with a given body, the URL being checked first. -/
def Request.toWire (r : Request) (body : Bytes) : Except Failure WireRequest := do
  let target ← r.target
  let headers ← r.wireHeaders
  .ok ⟨r.verb, target, headers, body⟩

end RpcWire.Http
