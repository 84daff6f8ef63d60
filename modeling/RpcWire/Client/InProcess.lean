import RpcWire.Client.Stream
import RpcWire.Transport.Loopback

/-!
# Calls in process

Whole calls of a client to a service in the same process. There is no waiting:
a unary call is answered at once, and a stream is served when everything has
been sent. If a message of a stream cannot be sent, nothing is served and the
reason is all that comes of the call; only where the stream has a single
message, which the client sends itself, is the stream served without it.

* `ClientConfig.callService` — a unary call;
* `ClientConfig.requestService` — a stream of responses, with all its events;
* `ClientConfig.streamService` — a stream of requests, with all its events;
* `ClientConfig.perform` — whatever the method is.
-/

namespace RpcWire

open Transport (Service Served)

variable {σ : Type}

/-- What comes of a call in process. -/
structure ServiceCall (σ ρ : Type) where
  /-- The call that the server read, if a request came so far. -/
  served : Option (Except Failure Server.Request)
  /-- What the interceptors remember. -/
  memory : σ
  result : ρ

def ServiceCall.map {ρ τ : Type} (f : ρ → τ) (s : ServiceCall σ ρ) : ServiceCall σ τ :=
  ⟨s.served, s.memory, f s.result⟩

namespace ClientConfig

/-- What is favoured where nothing waits: the queue, and so no abort. -/
def queueFirst : Favour := ⟨true, true⟩

def callService {α : Type} (β : Type) [Message α] [Message β] (c : ClientConfig σ) (memory : σ)
    (service : Service) (callee : Method) (message : α) (o : CallOptions) :
    ServiceCall σ (Reply β) :=
  let serve (r : Http.Request) : Served := service.serveRequest r r.body
  let (sent, memory, reply) :=
    c.callMessage β memory callee message o fun r => .answered (serve r).toResponse
  ⟨sent.map fun r => (serve r).call, memory, reply⟩

/-- Sends messages and no more; the first that cannot be sent is a failure of its own. -/
def sendAll {α : Type} [Message α] (s : Stream σ) : List α → Except Failure (Stream σ)
  | [] => .ok s.closeSend
  | message :: messages =>
    match s.send queueFirst message with
    | (.failed cause, _) => .error cause
    | (_, s) => sendAll s messages

/-- All events of a stream that nothing more is delivered to: none if they never end. -/
def drained (β : Type) [Message β] {τ : Type} (s : Stream τ) : List (Event β) × Stream τ :=
  match s.drain β queueFirst with
  | some (d, s) => (d.events, s)
  | none => ([], s)

/-- A stream on which everything has been sent, and the request that opened it, if one did: all
its events. -/
def serveStream (β : Type) [Message β] (service : Service) (request : Option Http.Request)
    (full : Stream (σ × StreamMemory)) : ServiceCall σ (List (Event β)) :=
  match request.map fun r => service.serveRequest r full.link.queue.flatten with
  | none =>
    let (es, s) := drained β full
    ⟨none, s.memory.1, es⟩
  | some served =>
    let link := { full.link with queue := [], inbox := served.events, hungUp := true }
    let (es, s) := drained β { full with link }
    ⟨some served.call, s.memory.1, es⟩

/-- A stream on which the caller sends some messages. -/
def streamService {α : Type} (β : Type) [Message α] [Message β] (c : ClientConfig σ) (memory : σ)
    (service : Service) (callee : Method) (messages : List α) (o : CallOptions) :
    Except Failure (ServiceCall σ (List (Event β))) :=
  let opened := c.openStream memory callee o fun _ => .ok (.fresh messages.length)
  (sendAll opened.stream messages).map (serveStream β service opened.sent)

/-- A stream of responses to one message. If it cannot be sent, that shows in the events only. -/
def requestService {α : Type} (β : Type) [Message α] [Message β] (c : ClientConfig σ) (memory : σ)
    (service : Service) (callee : Method) (message : α) (o : CallOptions) :
    ServiceCall σ (List (Event β)) :=
  let opened := c.openStream memory callee o fun _ => .ok (.fresh 1)
  serveStream β service opened.sent (opened.stream.sendOnly queueFirst message)

/-- A call of a method, given all messages there are to send. A method that takes a single message
is sent the first one. The call fails as a whole if the caller's own sending does. -/
def perform {α : Type} (β : Type) [Message α] [Inhabited α] [Message β] (c : ClientConfig σ)
    (memory : σ) (service : Service) (callee : Method) (messages : List α) (o : CallOptions) :
    Except Failure (ServiceCall σ (Reply β ⊕ List (Event β))) :=
  let first := messages.head?.getD default
  match callee.streamType with
  | .unary => .ok ((c.callService β memory service callee first o).map .inl)
  | .clientStream =>
    (c.streamService β memory service callee messages o).map (·.map (.inl ∘ .ofEvents))
  | .serverStream => .ok ((c.requestService β memory service callee first o).map .inr)
  | .bidiStream => (c.streamService β memory service callee messages o).map (·.map .inr)

end ClientConfig

end RpcWire
