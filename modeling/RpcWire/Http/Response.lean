import RpcWire.Status.Failure

/-!
# Responses

* `Http.Response` — what came back over HTTP, or why nothing did;
* `Reply` — what a call with a single response comes to;
* `Event` — one thing that happens on a stream of responses.
-/

namespace RpcWire

/-! ## HTTP -/

/-- A response. Without a status none arrived, and the cause says why. -/
structure Http.Response where
  status : Option Nat
  headers : Metadata
  body : Bytes
  trailers : Metadata
  cause : Option Failure
  deriving DecidableEq

namespace Http.Response

def arrived (status : Nat) (headers : Metadata) (body : Bytes) (trailers : Metadata) : Response :=
  ⟨some status, headers, body, trailers, none⟩

def failed (cause : Failure) : Response := ⟨none, .empty, [], .empty, some cause⟩

def withFailure (r : Response) (cause : Failure) : Response :=
  { r with body := [], cause := some cause }

end Http.Response

/-! ## Single responses -/

/-- What a call comes to: a message or a failure, and what was received around it. -/
structure Reply (α : Type) where
  outcome : Except Failure α
  headers : Metadata
  trailers : Metadata

namespace Reply

/-- A failure before anything was received. -/
def failed {α : Type} (cause : Failure) : Reply α := ⟨.error cause, .empty, .empty⟩

/-- The reply that a response is. -/
def ofResponse (r : Http.Response) : Reply Bytes where
  outcome := match r.cause with
    | some cause => .error cause
    | none => .ok r.body
  headers := r.headers
  trailers := r.trailers

/-- Converts the message; if that fails, so does the reply. -/
def andThen {α β : Type} (r : Reply α) (convert : α → Except Failure β) : Reply β :=
  { r with outcome := r.outcome.bind convert }

end Reply

/-! ## Streams of responses -/

/-- One thing that happens on a stream of responses. A stream is in order if it is headers, any
number of messages, and one completion. -/
inductive Event (α : Type) where
  | headers (headers : Metadata)
  | message (a : α)
  /-- The end of the stream, a success if there is no cause. -/
  | complete (cause : Option Failure) (trailers : Metadata)
  deriving DecidableEq

namespace Event

/-- A failed end; the failure's metadata double as the trailers. -/
def fail {α : Type} (cause : Failure) : Event α := .complete (some cause) cause.metadata

def isComplete {α : Type} : Event α → Bool
  | complete _ _ => true
  | _ => false

def map {α β : Type} (f : α → β) : Event α → Event β
  | headers m => headers m
  | message a => message (f a)
  | complete cause trailers => complete cause trailers

end Event

end RpcWire
