import RpcWire.Client.Hooks
import RpcWire.Message.Note
import RpcWire.Proofs.Session.Bounded
import RpcWire.Proofs.Session.Faithful

/-!
# What a caller receives

The order and the messages together, of every session of a stream that has just
been opened or that could not be opened (`received_inOrder`); with the hooks of
the three protocols, a message is always the payload of a frame that the
transport delivered (`message_protocolEvent`).
-/

namespace RpcWire

variable {σ τ : Type}

/-! ## The hooks of the protocols -/

/-- Whether a frame ends a stream instead of holding a message. -/
def endsStream (family : Family) (e : Envelope) : Bool :=
  match family with
  | .connect => e.has Envelope.endStreamFlag
  | .grpc => false
  | .grpcWeb => Grpc.isTrailers e

/-- A frame that a protocol takes is one that can be unpacked, and a compressed one had a pool. -/
theorem unpack_of_takeFrame {p : Protocol} {buffer rest : Bytes} {pool : Option Pool} {e : Envelope}
    (h : p.takeFrame buffer pool = .ok (rest, e)) :
    Envelope.unpack buffer pool = (rest, .ok e) ∧ (e.isCompressed = true → pool ≠ none) := by
  unfold Protocol.takeFrame at h
  split at h
  · cases h
  · next hu =>
    unfold Protocol.checkFrame at h
    split at h
    · cases h
    · next hchecked =>
      cases h
      refine ⟨hu, fun hcompressed hnone => hchecked ⟨hcompressed, ?_⟩⟩
      rw [hnone]
      rfl

/-- What Connect hands on as a message is the payload of a frame that does not end the stream. -/
theorem message_streamEvent_connect {c : ClientConfig τ} {pool : Option Pool} {e : Event Bytes}
    {payload : Bytes} (h : (Connect.streamEvent c pool e).1 = .message payload) :
    ∃ frame rest flags, e = .message frame ∧
      Envelope.unpack frame pool = (rest, .ok ⟨flags, payload⟩) ∧
      endsStream .connect ⟨flags, payload⟩ = false := by
  cases e with
  | complete cause trailers => cases h
  | headers headers =>
    simp only [Connect.streamEvent] at h
    split at h <;> cases h
  | message frame =>
    simp only [Connect.streamEvent] at h
    split at h
    · cases h
    · next rest env ht =>
      by_cases last : env.has Envelope.endStreamFlag = true
      · rw [if_pos last] at h
        split at h <;> cases h
      · -- no last frame: the event is the payload that was taken out
        rw [if_neg last] at h
        cases h
        exact ⟨frame, rest, env.flags, rfl, (unpack_of_takeFrame ht).1,
          by simpa [endsStream] using last⟩

/-- What gRPC and gRPC-Web hand on as a message is the payload of a frame, in gRPC-Web never of the
frame with the trailers. -/
theorem message_streamEvent_grpc {p : Protocol} {c : ClientConfig τ} {s : Grpc.StreamState}
    {e : Event Bytes} {payload : Bytes} (h : (Grpc.streamEvent p c s e).1 = .message payload) :
    ∃ frame rest flags, e = .message frame ∧
      Envelope.unpack frame s.pool = (rest, .ok ⟨flags, payload⟩) ∧
      ¬ (p = .grpcWeb ∧ Grpc.isTrailers ⟨flags, payload⟩ = true) := by
  cases e with
  | complete cause trailers => cases cause <;> cases h
  | headers headers =>
    simp only [Grpc.streamEvent, Grpc.streamHeaders] at h
    split at h <;> cases h
  | message frame =>
    simp only [Grpc.streamEvent] at h
    split at h
    · cases h
    · next rest env ht =>
      by_cases last : p = .grpcWeb ∧ Grpc.isTrailers env = true
      · rw [if_pos last] at h
        cases h
      · rw [if_neg last] at h
        cases h
        exact ⟨frame, rest, env.flags, rfl, (unpack_of_takeFrame ht).1, last⟩

/-- With the hook of a protocol, a message is the payload of a frame that the transport
delivered. -/
theorem message_protocolEvent {c : ClientConfig τ} {m : StreamMemory} {e : Event Bytes}
    {payload : Bytes} (h : (protocolEvent c m e).1 = .message payload) :
    ∃ frame rest flags, e = .message frame ∧
      Envelope.unpack frame m.pool = (rest, .ok ⟨flags, payload⟩) ∧
      endsStream c.family ⟨flags, payload⟩ = false := by
  unfold protocolEvent at h
  cases hf : c.family <;> rw [hf] at h <;> simp only at h
  · exact message_streamEvent_connect h
  · obtain ⟨frame, rest, flags, he, hu, -⟩ := message_streamEvent_grpc h
    exact ⟨frame, rest, flags, he, hu, rfl⟩
  · obtain ⟨frame, rest, flags, he, hu, hlast⟩ := message_streamEvent_grpc h
    exact ⟨frame, rest, flags, he, hu, by simpa [endsStream] using hlast⟩

/-! ## Sessions -/

/-- A stream of which nothing has been done: one that has been opened, or one that could not be. -/
inductive Stream.Fresh : Stream σ → Prop
  | opened (hook encoding memory link deadline) :
      Fresh (.opened hook encoding memory link deadline)
  | failed (encoding memory cause) : Fresh (.failed encoding memory cause)

namespace Stream.Fresh

variable {s : Stream σ}

theorem unseen (h : s.Fresh) : s.headers = none ∧ s.completed = false := by
  cases h <;> exact ⟨rfl, rfl⟩

/-- Nothing has been received of a fresh stream, and nothing has been logged. -/
theorem faithful {β : Type} [Message β] (h : s.Fresh) :
    Faithful (β := β) s.hook s.encoding s.pending (s.logged []) [] := by
  have reads : Reads s.encoding (s.pending ++ s.hook.made []) ([] : List (Event β)) s.pending := by
    rw [show s.hook.made [] = [] from rfl, List.append_nil]
    exact .begin _ _
  cases h with
  | opened hook encoding memory link deadline =>
    exact ⟨rfl, rfl, Nat.zero_le _, fun c => (nomatch c), fun _ _ => .inl rfl, fun _ _ => reads,
      fun c => (nomatch c)⟩
  | failed encoding memory cause =>
    exact ⟨rfl, rfl, Nat.le_refl _, fun c => (nomatch c), fun _ _ => .inr ⟨cause, rfl⟩,
      fun _ _ => reads, fun c => (nomatch c)⟩

end Stream.Fresh

variable {α β : Type} [Message α] [Message β]

/-- Actions one after another are one run. -/
theorem Session.run_append (s : Session σ) (earlier later : List (Favour × Action α)) :
    s.run β (earlier ++ later) =
      ((s.run β earlier).1 ++ ((s.run β earlier).2.run β later).1,
        ((s.run β earlier).2.run β later).2) := by
  induction earlier generalizing s with
  | nil => rfl
  | cons fa earlier ih =>
    obtain ⟨f, action⟩ := fa
    simp only [List.cons_append, run, ih]

/-- What a faithful stream has given out, unless the call has been aborted: everything there is to
read but what is pending, and why there is no more. -/
theorem Stream.Faithful.given {h : StreamHook σ} {e : Encoding} {begun : List (Event Bytes)}
    {s : Stream (σ × EventLog σ)} {read : List (Event β)} (hf : Faithful h e begun s read)
    (na : ¬ s.phase.isAborted) :
    (readable β e (begun ++ h.made s.memory.2)).1 =
        Event.messages read ++ (readable β e s.pending).1 ∧
      ∀ cause, (readable β e (begun ++ h.made s.memory.2)).2 = some cause → s.pending = [] →
        .complete (some cause) .empty ∈ read := by
  cases hc : s.completed with
  | true =>
    obtain ⟨messages, fault⟩ := hf.ended hc na []
    rw [List.append_nil] at messages fault
    rw [(hf.closed hc).2]
    exact ⟨by simpa [readable] using messages, fun cause hcause _ => fault cause hcause⟩
  | false =>
    have messages := (hf.running hc na).messages []
    have fault := (hf.running hc na).cause []
    rw [List.append_nil, List.append_nil] at messages fault
    refine ⟨messages, ?_⟩
    intro cause hcause hp
    rw [fault, hp] at hcause
    cases hcause

/-- What a caller receives is in order, and nothing follows the completion. Unless the call is
aborted, the messages are those that the hook made before its first completion or the first payload
that is no message, none lost and none doubled: at most one is still pending, and none once the
completion has been received. A payload that is no message makes a completion of no known code.
With the hook of a protocol, every message is the payload of a frame that was delivered. -/
theorem received_inOrder {s : Stream σ} (fresh : s.Fresh) (actions : List (Favour × Action α))
    {seen : List (Observation β)} {t : Session σ}
    (run : (Session.start s).run β actions = (seen, t)) :
    Event.InOrder (received seen) ∧
    (∀ cause trailers, .complete cause trailers ∈ received seen →
      ∀ (later : List (Favour × Action α)) (f : Favour),
        ((t.run β later).2.perform (α := α) β f (.caller .receive)).1 =
          if (t.run β later).2.held then .ended else .closed) ∧
    (∃ log, ((Session.start s).logged []).run β actions = (seen, t.logged log) ∧
      (t.held = true → ¬ t.stream.phase.isAborted →
        (readable β s.encoding (s.pending ++ s.hook.made log)).1 =
          Event.messages (received seen) ++ (readable β s.encoding t.stream.pending).1 ∧
        t.stream.pending.length ≤ 1 ∧
        (∀ cause trailers, .complete cause trailers ∈ received seen → t.stream.pending = []) ∧
        ∀ cause, (readable β s.encoding (s.pending ++ s.hook.made log)).2 = some cause →
          cause.code = .unknown ∧
          (t.stream.pending = [] → .complete (some cause) .empty ∈ received seen))) ∧
    ∀ (c : ClientConfig τ) (m : StreamMemory) (e : Event Bytes) (payload : Bytes),
      ((protocolStream c).event m e).1 = .message payload →
        ∃ frame rest flags, e = .message frame ∧
          Envelope.unpack frame m.pool = (rest, .ok ⟨flags, payload⟩) ∧
          endsStream c.family ⟨flags, payload⟩ = false := by
  obtain ⟨unseen, running⟩ := fresh.unseen
  obtain ⟨log, hlog⟩ := (Session.start s).run_logged (β := β) [] actions
  have ordered := Session.orderly_run (β := β) unseen running actions
  have kept := Session.run_keeps (Stream.Faithful.invariant s.hook s.encoding s.pending)
    (.start (fresh.faithful (β := β))) actions
  rw [Session.start_logged, hlog, run] at kept
  rw [run] at hlog ordered
  refine ⟨?_, ?_, ⟨log, hlog, ?_⟩, fun c m e payload => message_protocolEvent⟩
  · obtain ⟨u, h⟩ := ordered.handed
    exact h.inOrder
  · intro cause trailers ended later f
    -- what is done later is part of one longer run, whose events are in order as well
    have all := Session.orderly_run (β := β) unseen running (actions ++ later)
    rw [Session.run_append, run] at all
    have ended' : .complete cause trailers ∈ received (seen ++ (t.run β later).1) := by
      rw [received, List.flatMap_append]
      exact List.mem_append_left _ ended
    by_cases held : (t.run β later).2.held = true
    · have ended := Session.receive_of_complete (all.held held) ended' f
      rw [if_pos held]
      simp only [Session.perform, if_pos held, Session.performHeld]
      rw [show (t.run β later).2.stream.receive β f = _ from ended]
      rfl
    · rw [if_neg held]
      simp only [Session.perform, if_neg held]
  · intro held na
    -- while the stream is held, its own state accounts for what the caller has been handed
    have faithful := kept.held held
    obtain ⟨messages, fault⟩ := faithful.given na
    refine ⟨messages, faithful.few, ?_, ?_⟩
    · intro cause trailers ended
      exact (faithful.closed ((ordered.held held).completed_of_mem ended)).2
    · intro cause hcause
      exact ⟨code_of_readable hcause, fault cause hcause⟩

/-- A stream that an idle hook leaves as it is. -/
def plainStream : Stream Unit := .opened .idle .proto () (.fresh 1) none

/-- A message without headers, a completion, and an event that comes too late. -/
def lateDelivery : List (Favour × Action Note) :=
  [.deliver (.message [10, 1, 65]), .deliver (.complete none .empty), .deliver (.headers .empty),
    .caller .receive, .caller .receive, .caller .receive, .caller .receive].map (⟨true, true⟩, ·)

theorem received_inOrder_lateDelivery :
    let after := (Session.start plainStream).run Note lateDelivery
    received after.1 = [.headers .empty, .message ⟨"A", 0, []⟩, .complete none .empty] ∧
      after.2.held = true ∧ ¬ after.2.stream.phase.isAborted ∧
      Event.InOrder (received after.1) := by
  have shown : (received ((Session.start plainStream).run Note lateDelivery).1,
      ((Session.start plainStream).run Note lateDelivery).2.held,
      ((Session.start plainStream).run Note lateDelivery).2.stream.phase) =
        ([.headers .empty, .message ⟨"A", 0, []⟩, .complete none .empty], true, .completed) :=
    Session.run_of_within 1 _ _ (fun r => (received r.1, r.2.held, r.2.stream.phase))
      (by decide +kernel)
  obtain ⟨all, rest⟩ := Prod.mk.inj shown
  obtain ⟨held, completed⟩ := Prod.mk.inj rest
  refine ⟨all, held, ?_, ?_⟩
  · rw [completed]
    decide
  · have fresh : plainStream.Fresh := .opened .idle .proto () (.fresh 1) none
    exact (received_inOrder (τ := Unit) fresh lateDelivery rfl).1

end RpcWire
