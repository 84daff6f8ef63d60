import RpcWire.Client.Unary
import RpcWire.Loop

/-!
# Streams

A stream is a call with any number of messages in either direction. It lies
between a caller, who sends and receives, and a transport, which takes frames
and delivers events; two queues join it to the transport. An operation that
would have to wait says so and can be tried again.

A caller sees one headers event, then messages, then one completion, whatever
the transport delivers. A deadline that passes or a cancellation aborts the
stream; when something is waiting in a queue at the same moment, either may be
noticed first, so every operation that waits is told which to favour.

* `Stream.send`, `Stream.receive`, `Stream.cancel` — what a caller does;
* `Link` — the two queues;
* `Clock` — the deadline and the cancellation.
-/

namespace RpcWire

variable {σ : Type}

/-! ## The transport's side -/

/-- The queues between a stream and its transport. -/
structure Link where
  /-- How many frames may wait for the transport. -/
  capacity : Nat
  /-- The frames that wait for the transport. -/
  queue : List Bytes
  /-- Whether the transport still takes frames. -/
  takes : Bool
  /-- The events that wait for the stream. -/
  inbox : List (Event Bytes)
  /-- Whether the transport will deliver no more events. -/
  hungUp : Bool

/-- Queues that nothing has passed. -/
def Link.fresh (capacity : Nat) : Link := ⟨capacity, [], true, [], false⟩

/-- Queues with no transport at the other end. -/
def Link.dead : Link := ⟨0, [], false, [], true⟩

/-! ## Aborts -/

/-- What may abort a stream: a deadline, and a cancellation that has or has not been fired. -/
structure Clock where
  now : Nanoseconds
  deadline : Option Nanoseconds
  fired : Bool
  deriving DecidableEq, Repr

def Clock.idle : Clock := ⟨0, none, false⟩

/-- What is noticed first if several things are there. -/
structure Favour where
  /-- The queue rather than an abort. -/
  queue : Bool
  /-- The deadline rather than the cancellation. -/
  deadline : Bool
  deriving DecidableEq, Repr

def Clock.isLate (c : Clock) : Bool := c.deadline.any fun t => t ≤ c.now

/-- The abort that is noticed, if there is any. -/
def Clock.abort? (c : Clock) (f : Favour) : Option Abort :=
  if c.isLate ∧ (f.deadline ∨ ¬ c.fired) then some .timedOut
  else if c.fired then some .canceled
  else none

/-- What an operation that waits wakes up to. -/
inductive Wake (α : Type) where
  | ready (a : α)
  | aborted (a : Abort)
  | asleep

/-- What is noticed first of a queue and an abort. -/
def Wake.first {α : Type} (f : Favour) (queue : Option α) (abort : Option Abort) : Wake α :=
  match queue, abort with
  | some a, none => .ready a
  | none, some a => .aborted a
  | some a, some b => if f.queue then .ready a else .aborted b
  | none, none => .asleep

/-! ## The stream -/

/-- A stream whose hook has a state `σ`. -/
structure Stream (σ : Type) where
  hook : StreamHook σ
  encoding : Encoding
  /-- What the hook remembers. -/
  memory : σ
  phase : Phase
  /-- The headers that the caller has been given. -/
  headers : Option Metadata
  /-- Events that come before those of the transport. -/
  pending : List (Event Bytes)
  /-- Whether the caller has been given the completion. -/
  completed : Bool
  /-- Whether more may be sent. -/
  sending : Bool
  /-- Whether events of the transport are still taken. -/
  listening : Bool
  link : Link
  clock : Clock

namespace Stream

def opened (hook : StreamHook σ) (encoding : Encoding) (memory : σ) (link : Link)
    (deadline : Option Nanoseconds) : Stream σ where
  hook := hook
  encoding := encoding
  memory := memory
  phase := .pending
  headers := none
  pending := []
  completed := false
  sending := true
  listening := true
  link := link
  clock := ⟨0, deadline, false⟩

/-- A stream that could not be opened: all there is to receive is the failure. -/
def failed (encoding : Encoding) (memory : σ) (cause : Failure) : Stream σ where
  hook := .idle
  encoding := encoding
  memory := memory
  phase := .completed
  headers := none
  pending := [.fail cause]
  completed := false
  sending := false
  listening := false
  link := .dead
  clock := .idle

/-! ## Ending -/

/-- Aborts the exchange: the failure it ends with, and the stream, on which nothing is pending. -/
def abort (s : Stream σ) (a : Abort) : Failure × Stream σ :=
  let phase := s.phase.abort a
  (phase.abortFailure, { s with phase, sending := false, listening := false, pending := [] })

/-- Aborts the exchange and leaves the failure to be received. -/
def abortLater (s : Stream σ) (a : Abort) : Failure × Stream σ :=
  let (cause, s) := s.abort a
  (cause, { s with pending := [.fail cause] })

def cancel (s : Stream σ) : Stream σ :=
  if s.completed then s else (s.abortLater .canceled).2

def closeSend (s : Stream σ) : Stream σ := { s with sending := false }

/-- The stream is over: the completion, and the stream after it. -/
def finish {α : Type} (s : Stream σ) (cause : Option Failure) (trailers : Metadata) :
    Event α × Stream σ :=
  let phase := s.phase.advance .completed
  (.complete (cause.map phase.resolve) trailers,
    { s with phase, completed := true, sending := false, listening := false, pending := [] })

/-! ## Sending -/

/-- What came of sending a message. -/
inductive Sending where
  | sent
  | failed (cause : Failure)
  | waiting
  deriving DecidableEq

/-- What a place in the queue is worth: it is taken, or nobody is there to read from it. No place
is free if the queue is full. -/
def place (s : Stream σ) (frame : Bytes) : Option (Sending × Stream σ) :=
  if ¬ s.link.takes then
    some (.failed (.new .unavailable "stream closed by peer"), s)
  else if s.link.queue.length < s.link.capacity then
    some (.sent, { s with link := { s.link with queue := s.link.queue ++ [frame] } })
  else none

def enqueue (s : Stream σ) (f : Favour) (frame : Bytes) : Sending × Stream σ :=
  match Wake.first f (s.place frame) (s.clock.abort? f) with
  | .ready r => r
  | .aborted a => let (cause, s) := s.abortLater a; (.failed cause, s)
  | .asleep => (.waiting, s)

/-- Sends a message. If it has to wait nothing has been sent. -/
def send {α : Type} [Message α] (s : Stream σ) (f : Favour) (message : α) : Sending × Stream σ :=
  if s.sending then
    match s.encoding.encode message with
    | .error cause => (.failed cause, s)
    | .ok body =>
      match s.hook.message s.memory body with
      | (.error cause, memory) => (.failed cause, { s with memory })
      | (.ok frame, memory) => { s with memory }.enqueue f frame
  else (.failed (.new .failedPrecondition "stream is closed for sending"), s)

/-! ## Receiving -/

/-- The next event of the transport: a failure once it has hung up. -/
def arrival? (s : Stream σ) : Option (Event Bytes × Stream σ) :=
  match s.link.inbox with
  | e :: rest => some (e, { s with link := { s.link with inbox := rest } })
  | [] =>
    if s.link.hungUp ∨ ¬ s.listening then
      some (.fail (.new .unavailable "stream ended without a status"), s)
    else none

/-- The next event after the hook, if there is one. -/
def nextEvent (s : Stream σ) (f : Favour) : Option (Event Bytes) × Stream σ :=
  match s.pending with
  | e :: rest => (some e, { s with pending := rest })
  | [] =>
    match Wake.first f s.arrival? (s.clock.abort? f) with
    | .ready (e, s) =>
      let (e, memory) := s.hook.event s.memory e
      (some e, { s with memory })
    | .aborted a => let (cause, s) := s.abort a; (some (.fail cause), s)
    | .asleep => (none, s)

/-- What looking for the next event comes to. -/
inductive Turn (α : Type) where
  | event (e : Event α)
  /-- Headers that are not the first. -/
  | skipped
  | waiting
  /-- The completion has been given before. -/
  | ended

/-- The message of a payload that comes after the headers. -/
def decoded {α : Type} [Message α] (s : Stream σ) (payload : Bytes) : Event α × Stream σ :=
  match s.encoding.decode payload with
  | .ok message => (.message message, s)
  | .error cause => s.finish (some cause) .empty

/-- Headers for a message that came without any; the message is put back. -/
def supplyHeaders {α : Type} (s : Stream σ) (payload : Bytes) : Event α × Stream σ :=
  (.headers .empty,
    { s with headers := some .empty, pending := .message payload :: s.pending })

/-- Looks for the next event once. -/
def turn (α : Type) [Message α] (s : Stream σ) (f : Favour) : Turn α × Stream σ :=
  if s.completed then (.ended, s)
  else match s.nextEvent f with
    | (none, s) => (.waiting, s)
    | (some (.headers headers), s) =>
      if s.headers.isSome then (.skipped, s)
      else (.event (.headers headers), { s with headers := some headers })
    | (some (.message payload), s) =>
      let (e, s) := if s.headers.isSome then s.decoded payload else s.supplyHeaders payload
      (.event e, s)
    | (some (.complete cause trailers), s) =>
      let (e, s) := s.finish cause trailers
      (.event e, s)

/-- What came of receiving. -/
inductive Receiving (α : Type) where
  | event (e : Event α)
  | waiting
  | ended

/-- One turn of receiving, which passes over headers that are not the first. -/
def look (α : Type) [Message α] (f : Favour) (s : Stream σ) :
    Option (Stream σ ⊕ (Receiving α × Stream σ)) :=
  match s.turn α f with
  | (.event e, s) => some (.inr (.event e, s))
  | (.skipped, s) => some (.inl s)
  | (.waiting, s) => some (.inr (.waiting, s))
  | (.ended, s) => some (.inr (.ended, s))

/-- The next event. A stream that gives nothing but headers is looked at for ever. -/
def receive (α : Type) [Message α] (s : Stream σ) (f : Favour) : Option (Receiving α × Stream σ) :=
  loop (look α f) s

/-! ## Receiving again and again -/

def Receiving.isEvent {α : Type} : Receiving α → Bool
  | .event _ => true
  | .waiting | .ended => false

/-- Takes into account what was received, and goes on if it was an event and `more` is wanted. -/
def round {γ α : Type} (take : γ → Receiving α → γ) (more : γ → Bool)
    (receive : Stream σ → Option (Receiving α × Stream σ)) :
    γ × Stream σ → Option ((γ × Stream σ) ⊕ (γ × Stream σ))
  | (g, s) => do
    let (r, s) ← receive s
    let g := take g r
    return if r.isEvent ∧ more g then .inl (g, s) else .inr (g, s)

/-- Receives again and again, beginning with something gathered. -/
def gather {γ α : Type} [Message α] (take : γ → Receiving α → γ) (more : γ → Bool) (g : γ)
    (s : Stream σ) (f : Favour) : Option (γ × Stream σ) :=
  loop (round take more fun s => s.receive α f) (g, s)

/-- The events of a stream, as far as they have been received. -/
structure Drained (α : Type) where
  events : List (Event α)
  /-- Whether these are all. -/
  ended : Bool

def Drained.take {α : Type} (d : Drained α) : Receiving α → Drained α
  | .event e => { d with events := d.events ++ [e] }
  | .waiting => d
  | .ended => { d with ended := true }

/-- Receives up to the end. -/
def drain (α : Type) [Message α] (s : Stream σ) (f : Favour) : Option (Drained α × Stream σ) :=
  s.gather Drained.take (fun _ => true) ⟨[], false⟩ f

end Stream

/-! ## Single responses -/

/-- What the events of a stream say of a call that has a single response. -/
structure Gathered (α : Type) where
  headers : Metadata
  message : Option α
  /-- Whether there was more than one message. -/
  extra : Bool
  /-- The reply, once the stream has ended. -/
  reply : Option (Reply α)

namespace Gathered

def empty {α : Type} : Gathered α := ⟨.empty, none, false, none⟩

def outcome {α : Type} (g : Gathered α) (cause : Option Failure) : Except Failure α :=
  match cause, g.message with
  | some cause, _ => .error cause
  | none, none => .error Grpc.noMessages
  | none, some message => if g.extra then .error Grpc.multipleMessages else .ok message

/-- Takes one event into account; nothing counts after the end. -/
def absorb {α : Type} (g : Gathered α) (e : Event α) : Gathered α :=
  if g.reply.isSome then g
  else match e with
    | .headers headers => { g with headers }
    | .message message =>
      { g with extra := g.extra || g.message.isSome, message := g.message.or (some message) }
    | .complete cause trailers => { g with reply := some ⟨g.outcome cause, g.headers, trailers⟩ }

/-- The reply of a stream that gives no more events. -/
def close {α : Type} (g : Gathered α) : Reply α :=
  g.reply.getD ⟨.error (.new .unknown "stream ended without a status"), g.headers, .empty⟩

/-- Takes into account what was received. -/
def take {α : Type} (g : Gathered α) : Stream.Receiving α → Gathered α
  | .event e => g.absorb e
  | .waiting => g
  | .ended => { g with reply := some g.close }

end Gathered

/-- Receives until there is a reply, or nothing to make one of yet. -/
def Stream.awaitReply (α : Type) [Message α] (s : Stream σ) (f : Favour) :
    Option (Option (Reply α) × Stream σ) :=
  (s.gather Gathered.take (fun g => g.reply.isNone) Gathered.empty f).map fun (g, s) => (g.reply, s)

/-- The reply that the events of a whole stream make: there has to be exactly one message. -/
def Reply.ofEvents {α : Type} (es : List (Event α)) : Reply α :=
  (es.foldl Gathered.absorb Gathered.empty).close

/-! ## Opening -/

/-- A stream and the request that the transport was given, if it was. -/
structure OpenedStream (σ : Type) where
  sent : Option Http.Request
  stream : Stream σ

/-- Opens a stream. A request that is rejected, or that the transport refuses, gives a stream that
has failed. -/
def ClientConfig.openStream (c : ClientConfig σ) (memory : σ) (callee : Method) (o : CallOptions)
    (transport : Http.Request → Except Failure Link) : OpenedStream (σ × StreamMemory) :=
  let base := c.baseRequest callee o
  match c.streamHook.request (memory, .fresh) base with
  | (.error cause, memory) => ⟨none, .failed c.encoding memory cause⟩
  | (.ok request, memory) =>
    match transport request with
    | .error cause => ⟨some request, .failed c.encoding memory cause⟩
    | .ok link => ⟨some request, .opened c.streamHook c.encoding memory link base.timeout⟩

/-- Sends the one message of a stream of responses. What comes of it is left to be received. -/
def Stream.sendOnly {α : Type} [Message α] (s : Stream σ) (f : Favour) (message : α) : Stream σ :=
  (s.send f message).2.closeSend

end RpcWire
