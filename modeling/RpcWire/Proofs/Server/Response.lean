import RpcWire.Proofs.Except
import RpcWire.Proofs.Frame.Packed
import RpcWire.Proofs.Metadata
import RpcWire.Server.Response

/-!
# Responses as a server sends them

What a server makes of a handler's response in an enveloped protocol: headers,
a frame for each message, and the end, which is one more frame or stands in the
trailers (`sent_of_encode`).
-/

namespace RpcWire.Server.Response

open Envelope (Sealed frame)

/-! ## Headers and frames -/

/-- The payload of the frame that ends the body, if the protocol has one, with its flag. -/
def lastFrame? (r : Response) : Protocol → Option (UInt8 × Bytes)
  | .connect | .grpc => none
  | .connectStream => some (Envelope.endStreamFlag, (EndOfStream.mk r.failure r.trailers).encode)
  | .grpcWeb => some (Envelope.trailersFlag, TrailerText.encode (addStatus r.trailers r.failure))

theorem nameEncoding_eq (headers : Metadata) (p : Protocol) (t : Option Threshold) :
    nameEncoding headers p t = headers.setIf p.encodingField (t.map fun t => t.pool.name) := by
  cases t <;> rfl

/-- The headers of a response whose messages are framed. -/
def headersFor (r : Response) (request : Request) (compression : Compression) : Metadata :=
  nameEncoding (r.headers.set FieldName.contentType (request.protocol.contentType request.codec))
    request.protocol (thresholdFor request compression)

/-- All headers but content type and coding are those of the handler. -/
theorem values_headersFor {r : Response} {request : Request} {compression : Compression}
    {key : String} (type : Text.lower FieldName.contentType ≠ Text.lower key)
    (encoding : Text.lower request.protocol.encodingField ≠ Text.lower key) :
    (r.headersFor request compression).values key = r.headers.values key := by
  rw [headersFor, nameEncoding_eq, Metadata.values_setIf_of_ne encoding,
    Metadata.values_set_of_ne type]

/-- How a response whose messages are framed is sent: the frames, the last frame if the protocol
has one, and the status where there is none. -/
structure Sent (r : Response) (request : Request) (compression : Compression)
    (fs : List (UInt8 × Bytes)) (sent : Http.WireResponse) : Prop where
  frames : List.Forall₂ (Sealed (thresholdFor request compression)) r.messages fs
  body : sent.body =
    ((fs ++ (r.lastFrame? request.protocol).toList).map fun f => frame f.1 f.2).flatten
  rest : sent.headers = r.headersFor request compression ∧
      (request.protocol = .grpc → sent.trailers = addStatus r.trailers r.failure) ∨
    request.protocol = .grpc ∧ r.messages = [] ∧
      sent.headers = (r.headersFor request compression).merge (addStatus r.trailers r.failure) ∧
      sent.trailers = .empty

/-! ## Packing all messages -/

/-- Packing messages is packing each one, and it succeeds only if all of them do. -/
theorem packAll_eq_ok_iff {messages : List Bytes} {t : Option Threshold} {bytes : Bytes} :
    packAll messages t = .ok bytes ↔ ∃ frames,
      List.Forall₂ (fun m packed => Envelope.pack m t = .ok packed) messages frames ∧
        frames.flatten = bytes := by
  unfold packAll
  simp only [bind_eq_ok_iff, mapM_eq_ok_iff, mapError_eq_ok_iff, Except.ok.injEq]

/-- If each message becomes a frame, of which something holds, then all of them become frames. -/
theorem framed_of_packAll {t : Option Threshold} {R : Bytes → UInt8 × Bytes → Prop}
    (framed : ∀ m packed, Envelope.pack m t = .ok packed →
      ∃ f : UInt8 × Bytes, packed = frame f.1 f.2 ∧ R m f)
    {messages : List Bytes} {bytes : Bytes} (h : packAll messages t = .ok bytes) :
    ∃ fs : List (UInt8 × Bytes),
      List.Forall₂ R messages fs ∧ bytes = (fs.map fun f => frame f.1 f.2).flatten := by
  obtain ⟨frames, packed, rfl⟩ := packAll_eq_ok_iff.mp h
  clear h
  induction packed with
  | nil => exact ⟨[], .nil, rfl⟩
  | cons first _ ih =>
    obtain ⟨f, rfl, hf⟩ := framed _ _ first
    obtain ⟨fs, all, joined⟩ := ih
    exact ⟨f :: fs, .cons hf all, congrArg (frame f.1 f.2 ++ ·) joined⟩

theorem eq_nil_iff_of_packAll {messages : List Bytes} {t : Option Threshold} {bytes : Bytes}
    (h : packAll messages t = .ok bytes) : bytes = [] ↔ messages = [] := by
  obtain ⟨fs, frames, rfl⟩ := framed_of_packAll (fun _ _ => Envelope.sealed_of_pack) h
  cases frames with
  | nil => exact iff_of_true rfl rfl
  | @cons m f messages fs _ _ =>
    refine iff_of_false ?_ (List.cons_ne_nil _ _)
    intro empty
    rw [List.map_cons, List.flatten_cons] at empty
    exact absurd (List.append_eq_nil_iff.mp empty).1 (Envelope.frame_ne_nil f.1 f.2)

/-! ## Sending frames -/

/-- The response that holds the frames of the messages: the last frame follows them, or the status
is in the trailers, or with the headers if there is nothing but a failure. -/
def around (r : Response) (request : Request) (compression : Compression) (frames : Bytes) :
    Http.WireResponse :=
  let headers := r.headersFor request compression
  let trailers := addStatus r.trailers r.failure
  if request.protocol = .grpc then
    if frames = [] ∧ r.failure.isSome then ⟨200, headers.merge trailers, [], .empty⟩
    else ⟨200, headers, frames, trailers⟩
  else
    let last := (r.lastFrame? request.protocol).toList.map fun f => frame f.1 f.2
    ⟨200, headers, frames ++ last.flatten, .empty⟩

theorem encode_eq {r : Response} {request : Request} {compression : Compression}
    (framed : request.protocol.isEnveloped = true) : r.encode request compression =
      packAll r.messages (thresholdFor request compression) >>= fun frames =>
        .ok (r.around request compression frames) := by
  unfold encode around headersFor
  cases hp : request.protocol with
  | connect =>
    rw [hp] at framed
    cases framed
  | grpc =>
    refine congrArg (packAll r.messages _ >>= ·) (funext fun frames => ?_)
    simp only [if_pos]
    split <;> rfl
  | connectStream => simp [lastFrame?]
  | grpcWeb => simp [lastFrame?]

theorem body_around (r : Response) (request : Request) (compression : Compression)
    (fs : List (UInt8 × Bytes)) :
    (r.around request compression (fs.map fun f => frame f.1 f.2).flatten).body =
      ((fs ++ (r.lastFrame? request.protocol).toList).map fun f => frame f.1 f.2).flatten := by
  rw [List.map_append, List.flatten_append]
  unfold around
  split
  · next grpc =>
    have last : r.lastFrame? request.protocol = none := by rw [grpc]; rfl
    rw [last, Option.toList_none, List.map_nil, List.flatten_nil, List.append_nil]
    split
    · next only => exact only.1.symm
    · rfl
  · rfl

/-- A response that is encoded is sent frame by frame. -/
theorem sent_of_encode {r : Response} {request : Request} {compression : Compression}
    {sent : Http.WireResponse} (framed : request.protocol.isEnveloped = true)
    (h : r.encode request compression = .ok sent) : ∃ fs, Sent r request compression fs sent := by
  rw [encode_eq framed, bind_eq_ok_iff] at h
  obtain ⟨bytes, packed, made⟩ := h
  have silent := eq_nil_iff_of_packAll packed
  obtain ⟨fs, frames, rfl⟩ := framed_of_packAll (fun _ _ => Envelope.sealed_of_pack) packed
  cases made
  refine ⟨fs, frames, body_around r request compression fs, ?_⟩
  unfold around
  by_cases grpc : request.protocol = .grpc
  · rw [if_pos grpc]
    -- without frames, a failure is told of in the headers
    split
    · next only => exact .inr ⟨grpc, silent.mp only.1, rfl, rfl⟩
    · exact .inl ⟨rfl, fun _ => rfl⟩
  · rw [if_neg grpc]
    exact .inl ⟨rfl, fun same => absurd same grpc⟩

/-- A failure of gRPC without messages is told of in the headers alone. -/
theorem encode_silent {r : Response} {request : Request} {compression : Compression}
    (protocol : request.protocol = .grpc) (silent : r.messages = []) {f : Failure}
    (failed : r.failure = some f) :
    r.encode request compression = .ok ⟨200, (r.headersFor request compression).merge
      (addStatus r.trailers (some f)), [], .empty⟩ := by
  unfold encode headersFor
  simp only [protocol, silent, failed]
  rfl

/-- Where messages are framed, the status of HTTP says nothing. -/
theorem status_of_encode {r : Response} {request : Request} {compression : Compression}
    {sent : Http.WireResponse} (framed : request.protocol.isEnveloped = true)
    (h : r.encode request compression = .ok sent) : sent.status = 200 := by
  rw [encode_eq framed, bind_eq_ok_iff] at h
  obtain ⟨frames, -, made⟩ := h
  cases made
  unfold around
  split
  · split <;> rfl
  · rfl

end RpcWire.Server.Response
