import RpcWire.Call.Lifecycle
import RpcWire.Call.Options
import RpcWire.Client.Hooks

/-!
# Unary calls

A unary call prepares a request, hands it to a transport, waits, and makes a
reply of what comes back. While it waits, the deadline may pass or the caller
may cancel; the call then ends as if the transport had failed in that way.

* `ClientConfig.baseRequest` — the request every call starts from;
* `Wait` — how the wait for the transport ends;
* `ClientConfig.callUnary` — the whole call.
-/

namespace RpcWire

variable {σ : Type}

/-! ## Requests -/

/-- The headers of a caller without those that belong to the protocols. -/
def CallOptions.ownHeaders (o : CallOptions) : Metadata :=
  o.headers.keep fun f => !FieldName.isReserved f.name

/-- The request that a call starts from: the URL, the caller's headers and the timeout. -/
def ClientConfig.baseRequest (c : ClientConfig σ) (callee : Method) (o : CallOptions) :
    Http.Request :=
  { Http.Request.post c.host callee with
    headers := o.ownHeaders
    timeout := o.timeout.or c.timeout }

/-! ## Waiting -/

/-- How the wait for a transport ends. -/
inductive Wait where
  | answered (r : Http.Response)
  | aborted (a : Abort)

/-- The wait for a response that comes after a delay, with a deadline and a cancellation that
may come first. What comes first wins; of what comes together, the response, then the deadline. -/
def Wait.race (r : Http.Response) (delay : Nanoseconds) (deadline cancel : Option Nanoseconds) :
    Wait :=
  let before (t : Nanoseconds) (limit : Option Nanoseconds) : Bool := limit.all fun l => t ≤ l
  if before delay deadline && before delay cancel then .answered r
  else match deadline with
    | some t => if before t cancel then .aborted .timedOut else .aborted .canceled
    | none => .aborted .canceled

def Wait.phase : Wait → Phase
  | answered _ => .completed
  | aborted a => Phase.pending.abort a

def Wait.response : Wait → Http.Response
  | answered r => r
  | aborted a => .failed (Phase.pending.abort a).abortFailure

/-! ## Calls -/

/-- What comes of a unary call. -/
structure UnaryCall (σ : Type) where
  /-- The request that the transport was given, if the call came so far. -/
  sent : Option Http.Request
  /-- What the interceptors remember. -/
  memory : σ
  phase : Phase
  response : Http.Response

/-- The response with its cause as it is reported in a phase. -/
def Http.Response.resolved (r : Http.Response) (p : Phase) : Http.Response :=
  { r with cause := r.cause.map p.resolve }

/-- A unary call with an encoded message. A request that is rejected is not sent, and nothing is
done to its failure. -/
def ClientConfig.callUnary (c : ClientConfig σ) (memory : σ) (callee : Method) (body : Bytes)
    (o : CallOptions) (transport : Http.Request → Wait) : UnaryCall σ :=
  match c.unaryHook.request memory { c.baseRequest callee o with body } with
  | (.error cause, memory) => ⟨none, memory, .completed, .failed cause⟩
  | (.ok request, memory) =>
    let wait := transport request
    let (response, memory) := c.unaryHook.response memory wait.response
    ⟨some request, memory, wait.phase, response.resolved wait.phase⟩

def UnaryCall.reply (u : UnaryCall σ) : Reply Bytes := .ofResponse u.response

/-- The octets of a message as a client sends them. What may be sent as a GET is written so that
equal messages have equal octets. -/
def ClientConfig.encodeMessage {α : Type} [Message α] (c : ClientConfig σ) (callee : Method)
    (message : α) : Except Failure Bytes :=
  if callee.isSafe ∧ c.get ≠ .never then c.encoding.encodeCanonical message
  else c.encoding.encode message

/-- A unary call with a message: what comes of it, and the reply. A message that cannot be encoded
is not sent. -/
def ClientConfig.callMessage {α : Type} (β : Type) [Message α] [Message β] (c : ClientConfig σ)
    (memory : σ) (callee : Method) (message : α) (o : CallOptions)
    (transport : Http.Request → Wait) : Option Http.Request × σ × Reply β :=
  match c.encodeMessage callee message with
  | .error cause => (none, memory, .failed cause)
  | .ok body =>
    let u := c.callUnary memory callee body o transport
    (u.sent, u.memory, u.reply.andThen c.encoding.decode)

end RpcWire
