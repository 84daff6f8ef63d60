import RpcWire.Client.Hooks
import RpcWire.Proofs.Frame.Packed
import RpcWire.Proofs.Metadata

/-!
# What a client makes of a stream

The events of a stream are what a hook makes of headers, frames and an end, one
after another (`StreamHook.produce`). Headers of the right media type are handed
on, and every frame into which a message was packed gives that message
(`produce_frames`).
-/

namespace RpcWire

variable {σ : Type}

open Envelope (FitsPacked Sealed Undoes frame)

/-! ## Producing events -/

/-- What a hook makes of events, one after another. -/
def StreamHook.produce (h : StreamHook σ) : σ → List (Event Bytes) → List (Event Bytes)
  | _, [] => []
  | s, e :: es => (h.event s e).1 :: h.produce (h.event s e).2 es

/-- The events up to the first completion. -/
def Event.untilComplete {α : Type} : List (Event α) → List (Event α)
  | [] => []
  | e :: es => if e.isComplete then [e] else e :: untilComplete es

theorem Event.untilComplete_messages {α : Type} (messages : List α) (cause : Option Failure)
    (trailers : Metadata) (rest : List (Event α)) :
    untilComplete (messages.map .message ++ .complete cause trailers :: rest) =
      messages.map .message ++ [.complete cause trailers] := by
  induction messages with
  | nil => rfl
  | cons m messages ih => exact congrArg (Event.message m :: ·) ih

/-- What a client remembers of a stream once it has seen the headers. -/
def StreamMemory.opened (c : ClientConfig σ) (headers : Metadata) : StreamMemory :=
  match c.family with
  | .connect => ⟨c.pools.resolve? (headers.text? FieldName.connectContentEncoding), .empty, false⟩
  | .grpc | .grpcWeb => ⟨Grpc.poolOf c headers, headers, false⟩

theorem lower_contentType (p : Protocol) (e : Encoding) :
    Text.lower (p.contentType e.name) = p.contentType e.name := by
  cases p <;> cases e <;> decide

/-- The content type that a server of the protocol names is accepted. -/
theorem checkType_ok {p : Protocol} {e : Encoding} {headers : Metadata}
    (h : headers.text? FieldName.contentType = some (p.contentType e.name)) :
    p.checkType e headers = .ok () := by
  have actual : mediaTypeOf headers = p.expectedType e := by
    rw [mediaTypeOf, h, Option.getD_some, lower_contentType]
    rfl
  have accepted : p.accepts e (p.expectedType e) = true := by simp [Protocol.accepts]
  unfold Protocol.checkType
  simp only [actual, accepted, if_true]

theorem protocolEvent_headers {c : ClientConfig σ} {headers : Metadata}
    (h : headers.text? FieldName.contentType =
      some ((c.family.protocol true).contentType c.encoding.name)) :
    protocolEvent c .fresh (.headers headers) = (.headers headers, .opened c headers) := by
  have checked := checkType_ok h
  unfold protocolEvent StreamMemory.opened
  cases hf : c.family <;> rw [hf] at checked <;> simp only [Family.protocol, if_true] at checked
  · simp only [Connect.streamEvent, checked]
    rfl
  · simp only [Grpc.streamEvent, Grpc.streamHeaders, checked]
    rfl
  · simp only [Grpc.streamEvent, Grpc.streamHeaders, checked]
    rfl

/-- What a client remembers of a stream once it has seen a message. -/
def StreamMemory.afterMessage (c : ClientConfig σ) (m : StreamMemory) : StreamMemory :=
  match c.family with
  | .connect => m
  | .grpc | .grpcWeb => { m with seenMessage := true }

/-- A frame with the flags of a message ends no stream, in any protocol. -/
theorem Envelope.goesOn {e : Envelope} (h : e.flags = 0 ∨ e.flags = Envelope.compressedFlag) :
    e.has Envelope.endStreamFlag = false ∧ Grpc.isTrailers e = false := by
  unfold Grpc.isTrailers Envelope.has
  rcases h with h | h <;> rw [h] <;> decide

/-- A message frame is handed on as its payload, and remembered as seen. -/
theorem protocolEvent_message {c : ClientConfig σ} {m : StreamMemory} {bytes payload : Bytes}
    {flags : UInt8} (hflags : flags = 0 ∨ flags = Envelope.compressedFlag)
    (taken : ∀ p : Protocol, p.takeFrame bytes m.pool = .ok ([], ⟨flags, payload⟩)) :
    protocolEvent c m (.message bytes) = (.message payload, m.afterMessage c) := by
  have goesOn := Envelope.goesOn (e := ⟨flags, payload⟩) hflags
  unfold protocolEvent StreamMemory.afterMessage
  cases c.family
  · simp only [Connect.streamEvent, taken, goesOn.1, Bool.false_eq_true, if_false]
  · simp only [Grpc.streamEvent, taken, goesOn.2, Bool.false_eq_true, and_false, if_false]
  · simp only [Grpc.streamEvent, taken, goesOn.2, Bool.false_eq_true, and_false, if_false]

theorem Grpc.isTrailers_last (payload : Bytes) :
    Grpc.isTrailers ⟨Envelope.trailersFlag, payload⟩ = true := by
  unfold Grpc.isTrailers Envelope.has
  simp only
  decide

/-- A frame of trailers ends a stream of gRPC-Web. -/
theorem protocolEvent_trailers {c : ClientConfig σ} (hf : c.family = .grpcWeb) {payload : Bytes}
    (fits : Envelope.Fits payload) (m : StreamMemory) :
    (protocolEvent c m (.message (frame Envelope.trailersFlag payload))).1 =
      Grpc.completeFrom m (TrailerText.parse payload) := by
  have plain : Envelope.trailersFlag &&& Envelope.compressedFlag = 0 := by decide
  have taken := Protocol.grpcWeb.takeFrame_frame fits plain m.pool
  have last := Grpc.isTrailers_last payload
  unfold protocolEvent
  simp only [hf, Grpc.streamEvent, taken, last, and_self, if_true]

/-- The end of the body ends a stream of gRPC or gRPC-Web. -/
theorem protocolEvent_complete {c : ClientConfig σ} (hf : c.family ≠ .connect) (m : StreamMemory)
    (trailers : Metadata) :
    (protocolEvent c m (.complete none trailers)).1 = Grpc.completeFrom m trailers := by
  unfold protocolEvent
  cases hc : c.family with
  | connect => exact absurd hc hf
  | grpc => rfl
  | grpcWeb => rfl

/-- What a client remembers of a stream once it has seen some messages. -/
def StreamMemory.afterMessages (c : ClientConfig σ) (m : StreamMemory) : List Bytes → StreamMemory
  | [] => m
  | _ :: messages => (m.afterMessage c).afterMessages c messages

theorem StreamMemory.pool_afterMessage (c : ClientConfig σ) (m : StreamMemory) :
    (m.afterMessage c).pool = m.pool := by
  unfold afterMessage
  cases c.family <;> rfl

/-- The messages of packed frames are handed on, one after another. -/
theorem produce_frames {c : ClientConfig σ} {t : Option Threshold} {m : StreamMemory}
    (undoes : Undoes m.pool t) {messages : List Bytes} {fs : List (UInt8 × Bytes)}
    (h : List.Forall₂ (Sealed t) messages fs) (fits : ∀ m ∈ messages, FitsPacked t m)
    (rest : List (Event Bytes)) :
    (protocolStream c).produce m (fs.map (fun f => .message (frame f.1 f.2)) ++ rest) =
      messages.map .message ++ (protocolStream c).produce (m.afterMessages c messages) rest := by
  induction h generalizing m with
  | nil => rfl
  | @cons message f messages fs hsealed _ ih =>
    have taken : ∀ p : Protocol, p.takeFrame (frame f.1 f.2) m.pool = .ok ([], ⟨f.1, message⟩) := by
      intro p
      have := p.takeFrame_of_sealed undoes hsealed (fits message List.mem_cons_self) []
      rwa [List.append_nil] at this
    have step := protocolEvent_message (c := c) hsealed.flags taken
    -- a message does not change the pool, so the frames that follow are opened with the same one
    have later := ih (m := m.afterMessage c) (by rw [StreamMemory.pool_afterMessage]; exact undoes)
      fun b hb => fits b (List.mem_cons_of_mem _ hb)
    show (protocolEvent c m (.message (frame f.1 f.2))).1 ::
      (protocolStream c).produce (protocolEvent c m (.message (frame f.1 f.2))).2 _ = _
    rw [step]
    exact congrArg (Event.message message :: ·) later

namespace StreamMemory

theorem afterMessages_grpc {c : ClientConfig σ} (hf : c.family ≠ .connect) (m : StreamMemory)
    (messages : List Bytes) :
    m.afterMessages c messages =
      { m with seenMessage := m.seenMessage || !messages.isEmpty } := by
  induction messages generalizing m with
  | nil => simp [afterMessages]
  | cons b messages ih =>
    have seen : m.afterMessage c = { m with seenMessage := true } := by
      unfold afterMessage
      cases hc : c.family with
      | connect => exact absurd hc hf
      | grpc => rfl
      | grpcWeb => rfl
    rw [afterMessages, seen, ih]
    simp

/-- At the headers a stream learns its coding, and has seen no message yet. -/
theorem opened_grpc {c : ClientConfig σ} (hf : c.family ≠ .connect) (headers : Metadata) :
    opened c headers = ⟨Grpc.poolOf c headers, headers, false⟩ := by
  unfold opened
  cases hc : c.family with
  | connect => exact absurd hc hf
  | grpc => rfl
  | grpcWeb => rfl

end StreamMemory

end RpcWire
