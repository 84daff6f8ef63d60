import RpcWire.Frame.Splitter
import RpcWire.Http.Wire

/-!
# What a network makes of an exchange

However a response arrives — at once or in chunks, whole or broken off — a
client is told one of two things: a response or the failure in its place, or
the events of a stream. Any complaint of the network is an unavailable peer.

* `Arrival` — what arrived;
* `Arrival.toResponse` — as a single response;
* `Arrival.events` — as a stream.
-/

namespace RpcWire.Transport

/-- What the network delivers for a request. -/
inductive Arrival where
  /-- No response came. -/
  | nothing
  /-- A response, its body in chunks; without trailers it was broken off. -/
  | response (status : Nat) (headers : Metadata) (chunks : List Bytes)
      (trailers : Option Metadata)

/-- The failure that a complaint of the network is. -/
def unavailable : Failure := .ofCause .unavailable .other

namespace Arrival

/-- The response that a call is given. What was broken off leaves only its headers, with the
failure. -/
def toResponse : Arrival → Http.Response
  | nothing => .failed unavailable
  | response status headers chunks (some trailers) =>
    .arrived status headers chunks.flatten trailers
  | response _ headers _ none => .failed (unavailable.withMetadata headers)

/-- The end of a stream whose frames have been delivered. -/
def ending (rest : Envelope.Splitter) : Option Metadata → Event Bytes
  | none => .fail unavailable
  | some trailers =>
    match rest.finish with
    | .ok _ => .complete none trailers
    | .error cause => .fail cause

/-- The events that a stream is given: the headers, every whole frame, and the end. -/
def events : Arrival → List (Event Bytes)
  | nothing => [.fail unavailable]
  | response status headers chunks trailers =>
    if status ≠ 200 then [.fail (.ofHttpStatus status headers)]
    else
      let (frames, rest) := Envelope.Splitter.fresh.pushAll chunks
      .headers headers :: (frames.map .message ++ [ending rest trailers])

end Arrival

/-- A call with a single response over a network. -/
def exchange (network : Http.WireRequest → Arrival) (r : Http.Request) : Http.Response :=
  match r.toWire r.body with
  | .ok wire => (network wire).toResponse
  | .error cause => .failed cause

/-- The events of a stream over a network whose frames have been sent. A request that cannot be put
on the wire opens no stream. -/
def streamEvents (network : Http.WireRequest → Arrival) (r : Http.Request) (frames : List Bytes) :
    Except Failure (List (Event Bytes)) :=
  (r.toWire frames.flatten).map fun wire => (network wire).events

end RpcWire.Transport
