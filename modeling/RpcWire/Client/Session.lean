import RpcWire.Client.Stream

/-!
# Sessions

A session is a stream together with everything that can be done to it, by the
caller who holds it, by the transport, and by time: a list of actions, each of
which makes an observation. A caller who no longer holds the stream can do
nothing more, and dropping the stream ends both directions.
-/

namespace RpcWire

variable {σ : Type}

/-- Something that a caller does to a stream whose messages go out as `α`. -/
inductive CallerAction (α : Type) where
  | send (message : α)
  | closeSend
  | receive
  | headers
  | cancel
  /-- Closes the sending side and asks for the single response, once: see `Gathered.await` for a
  caller who waits. -/
  | closeAndReceive
  /-- Receives everything up to the end. -/
  | collect
  | drop

/-- Something that is done to a stream. -/
inductive Action (α : Type) where
  | caller (a : CallerAction α)
  /-- The transport delivers an event. -/
  | deliver (e : Event Bytes)
  /-- The transport delivers no more events. -/
  | hangUp
  /-- The transport takes no more frames. -/
  | dropBody
  /-- The transport takes the frames that wait for it. -/
  | takeBody
  /-- The transport takes some of the frames that wait for it: so many at most. -/
  | takeFrames (limit : Nat)
  /-- The cancellation is fired. -/
  | fire
  /-- Time passes. -/
  | advance (t : Nanoseconds)

/-- How far the body of a request has come. -/
inductive BodyState where
  | open
  | ended
  /-- The transport takes no more of it. -/
  | gone
  deriving DecidableEq, Repr

/-- What is seen of an action, messages coming in as `β`. -/
inductive Observation (β : Type) where
  | done
  /-- The caller no longer holds the stream. -/
  | closed
  /-- Nothing has come of it: it waits, or it goes on for ever. -/
  | waiting
  | ended
  | sent (r : Except Failure Unit)
  | event (e : Event β)
  | headers (m : Option Metadata)
  | reply (r : Reply β)
  | events (es : List (Event β))
  | delivered (listened : Bool)
  | body (frames : List Bytes) (state : BodyState)

def Observation.ofReceiving {β : Type} : Stream.Receiving β → Observation β
  | .event e => .event e
  | .waiting => .waiting
  | .ended => .ended

/-- A stream and whether its caller still holds it. -/
structure Session (σ : Type) where
  stream : Stream σ
  held : Bool

namespace Session

/-- A session of which nothing has been done. -/
def start (s : Stream σ) : Session σ := ⟨s, true⟩

/-- The caller gives the stream up. -/
def release (s : Stream σ) : Session σ := ⟨{ s with sending := false, listening := false }, false⟩

/-- The transport delivers an event, if the stream is listening. -/
def deliver (s : Session σ) (e : Event Bytes) : Bool × Session σ :=
  let t := s.stream
  if t.listening ∧ ¬ t.link.hungUp then
    (true, { s with stream := { t with link := { t.link with inbox := t.link.inbox ++ [e] } } })
  else (false, s)

def relink (s : Session σ) (change : Link → Link) : Session σ :=
  { s with stream := { s.stream with link := change s.stream.link } }

def reclock (s : Session σ) (change : Clock → Clock) : Session σ :=
  { s with stream := { s.stream with clock := change s.stream.clock } }

/-- The transport takes the first frames that have been sent, up to `limit` of them. -/
def takeFrames (s : Session σ) (limit : Nat) : List Bytes × BodyState × Session σ :=
  let t := s.stream
  if t.link.takes then
    let rest := t.link.queue.drop limit
    (t.link.queue.take limit, if t.sending ∨ ¬ rest.isEmpty then .open else .ended,
      s.relink fun l => { l with queue := rest })
  else ([], .gone, s)

/-- The transport takes what has been sent. -/
def takeBody (s : Session σ) : List Bytes × BodyState × Session σ :=
  s.takeFrames s.stream.link.queue.length

variable {α : Type} [Message α] (β : Type) [Message β]

/-- An action of a caller who holds the stream. -/
def performHeld (s : Stream σ) (f : Favour) : CallerAction α → Observation β × Session σ
  | .send message =>
    match s.send f message with
    | (.sent, s) => (.sent (.ok ()), .start s)
    | (.failed cause, s) => (.sent (.error cause), .start s)
    | (.waiting, s) => (.waiting, .start s)
  | .closeSend => (.done, .start s.closeSend)
  | .receive =>
    match s.receive β f with
    | some (r, s) => (.ofReceiving r, .start s)
    | none => (.waiting, .start s)
  | .headers => (.headers s.headers, .start s)
  | .cancel => (.done, .start s.cancel)
  | .closeAndReceive =>
    match s.closeSend.awaitReply β f with
    | some (some r, s) => (.reply r, release s)
    | some (none, s) => (.waiting, release s)
    | none => (.waiting, release s.closeSend)
  | .collect =>
    match s.drain β f with
    | some (⟨es, true⟩, s) => (.events es, release s)
    | some (⟨_, false⟩, s) => (.waiting, release s)
    | none => (.waiting, release s)
  | .drop => (.done, release s)

def perform (s : Session σ) (f : Favour) : Action α → Observation β × Session σ
  | .caller a => if s.held then performHeld β s.stream f a else (.closed, s)
  | .deliver e => let (listened, s) := s.deliver e; (.delivered listened, s)
  | .hangUp => (.done, s.relink fun l => { l with hungUp := true })
  | .dropBody => (.done, s.relink fun l => { l with queue := [], takes := false })
  | .takeBody => let (frames, state, s) := s.takeBody; (.body frames state, s)
  | .takeFrames limit => let (frames, state, s) := s.takeFrames limit; (.body frames state, s)
  | .fire => (.done, s.reclock fun c => { c with fired := true })
  | .advance t => (.done, s.reclock fun c => { c with now := c.now + t })

/-- A list of actions, each with what it favours: the observations, and the session after them. -/
def run (s : Session σ) : List (Favour × Action α) → List (Observation β) × Session σ
  | [] => ([], s)
  | (f, action) :: rest =>
    let (seen, s) := s.perform β f action
    let (more, s) := s.run rest
    (seen :: more, s)

end Session

/-! ## Waiting for the single response -/

/-- One round of waiting, if that is what was seen. -/
def Gathered.see {β : Type} (g : Gathered β) : Observation β → Gathered β
  | .event e => g.take (.event e)
  | .ended => g.take .ended
  | _ => g

/-- The reply to a caller who closed the sending side and waits while other things are done to the
stream, when this has been seen: the loop that asks once (`Stream.awaitReply`), held up between its
rounds. -/
def Gathered.await {β : Type} (g : Gathered β) (seen : List (Observation β)) : Option (Reply β) :=
  (seen.foldl Gathered.see g).reply

end RpcWire
