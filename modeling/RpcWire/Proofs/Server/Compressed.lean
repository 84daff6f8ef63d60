import RpcWire.Proofs.Client.Trailers
import RpcWire.Proofs.Coding.Preference
import RpcWire.Proofs.Server.Response
import RpcWire.Proofs.Server.Status

/-!
# Servers compress what the peer offered

A server compresses a message if it has the size that was set, with the pool on
whose name the peer's accept header settles (`AsksFor`), and names this pool in
the headers (`CompressedBy`). A peer that accepts nothing, or would rather have
messages as they are, gets them as they are (`compressed_as_offered`).

The field that names the pool is the server's own with one exception: a failure
of gRPC without messages is told of in the headers alone, and then the handler's
trailers stand among them, whatever they are called.
-/

namespace RpcWire.Server

open Envelope (compressedFlag frame)

/-! ## What the peer offered -/

/-- The accept header of a request settles on a pool. -/
structure Request.Offers (request : Request) (pools : Registry) (pool : Pool) : Prop where
  settled : ∃ header, request.headers.text? request.protocol.acceptField = some header ∧
    pools.Settles (Registry.membersOf header) pool.name
  proper : pool.name ≠ Registry.identity
  known : pools.find? pool.name = some pool

/-- A request accepts nothing, or would rather have messages as they are. -/
def Request.Declines (request : Request) (pools : Registry) : Prop :=
  ∀ header, request.headers.text? request.protocol.acceptField = some header →
    pools.Settles (Registry.membersOf header) Registry.identity

namespace Request

variable {request : Request} {pools : Registry} {pool : Pool}

theorem not_offers_of_declines (h : request.Declines pools) : ¬ request.Offers pools pool := by
  rintro ⟨⟨header, read, settled⟩, proper, -⟩
  exact proper (settled.unique (h header read))

/-- A client offers a pool exactly if negotiation comes to this pool. -/
theorem offers_iff : request.Offers pools pool ↔
    pools.negotiate? (request.headers.text? request.protocol.acceptField) = some pool := by
  rw [Registry.negotiate?_eq_some_iff]
  constructor
  · rintro ⟨⟨header, read, settled⟩, proper, known⟩
    exact ⟨header, read, settled, proper, known⟩
  · rintro ⟨header, read, settled, proper, known⟩
    exact ⟨⟨header, read, settled⟩, proper, known⟩

/-- The name of a pool that is offered is part of the header and so can stand in one. -/
theorem Offers.isVisible (h : request.Offers pools pool) : IsVisible pool.name := by
  obtain ⟨header, read, settled⟩ := h.settled
  have visible := isVisible_iff.mp (Metadata.isVisible_of_text? read)
  exact isVisible_iff.mpr fun c hc => visible c (Registry.mem_of_settles settled hc)

end Request

namespace Response

variable {r : Response} {request : Request} {compression : Compression} {sent : Http.WireResponse}

/-- Messages are compressed with the offered pool, from the configured size on. -/
theorem thresholdFor_eq_some_iff {t : Threshold} :
    thresholdFor request compression = some t ↔
      compression.minBytes = some t.minBytes ∧ request.Offers compression.pools t.pool := by
  unfold thresholdFor
  simp only [Option.bind_eq_bind, Option.bind_eq_some_iff, Request.offers_iff]
  constructor
  · rintro ⟨minBytes, set, pool, picked, made⟩
    cases made
    exact ⟨set, picked⟩
  · rintro ⟨set, picked⟩
    exact ⟨t.minBytes, set, t.pool, picked, rfl⟩

theorem thresholdFor_of_declines (h : request.Declines compression.pools) :
    thresholdFor request compression = none := by
  rw [Option.eq_none_iff_forall_ne_some]
  intro t found
  exact Request.not_offers_of_declines h (thresholdFor_eq_some_iff.mp found).2

/-! ## The name of the pool -/

/-- The names that the field for them holds. -/
def poolNames (request : Request) (compression : Compression) : List Bytes :=
  ((thresholdFor request compression).map fun t => t.pool.name).toList.map Utf8.encode

/-- A failure without messages, which gRPC tells of in the headers alone. -/
def IsHeadersOnly (r : Response) (request : Request) : Prop :=
  request.protocol = .grpc ∧ r.messages = [] ∧ r.failure.isSome = true

instance (r : Response) (request : Request) : Decidable (r.IsHeadersOnly request) :=
  inferInstanceAs (Decidable (_ ∧ _ ∧ _))

theorem values_encodingField_headersFor
    (unnamed : r.headers.values request.protocol.encodingField = []) :
    (r.headersFor request compression).values request.protocol.encodingField =
      poolNames request compression := by
  have legal : isFieldName request.protocol.encodingField = true := by
    cases request.protocol <;> decide
  have apart : Text.lower FieldName.contentType ≠ Text.lower request.protocol.encodingField := by
    cases request.protocol <;> decide
  have visible : ∀ name ∈ (thresholdFor request compression).map fun t => t.pool.name,
      IsVisible name := by
    intro name hname
    obtain ⟨t, ht, rfl⟩ := Option.map_eq_some_iff.mp hname
    exact (thresholdFor_eq_some_iff.mp ht).2.isVisible
  rw [headersFor, nameEncoding_eq, Metadata.values_setIf legal visible]
  · rfl
  · rw [Metadata.values_set_of_ne apart, unnamed]

/-- The field for the names holds nothing else, except where the trailers are headers. -/
theorem values_encodingField (framed : request.protocol.isEnveloped = true)
    (encoded : r.encode request compression = .ok sent)
    (unnamed : r.headers.values request.protocol.encodingField = []) :
    sent.headers.values request.protocol.encodingField = poolNames request compression ++
      if r.IsHeadersOnly request then r.trailers.values request.protocol.encodingField else [] := by
  rw [encode_eq framed, bind_eq_ok_iff] at encoded
  obtain ⟨bytes, packed, made⟩ := encoded
  cases made
  have silent : bytes = [] ↔ r.messages = [] := eq_nil_iff_of_packAll packed
  have apart : ∀ name ∈ [FieldName.grpcStatus, FieldName.grpcMessage, FieldName.grpcStatusRecord],
      Text.lower name ≠ Text.lower request.protocol.encodingField := by
    cases request.protocol <;> decide
  have named := @values_encodingField_headersFor r request compression unnamed
  unfold around
  by_cases only : r.IsHeadersOnly request
  · rw [if_pos only.1, if_pos ⟨silent.mpr only.2.1, only.2.2⟩, if_pos only, Metadata.values_merge,
      named, values_addStatus_of_ne apart]
  · rw [if_neg only, List.append_nil, ← named]
    split
    · next grpc =>
      rw [if_neg fun told => only ⟨grpc, silent.mp told.1, told.2⟩]
    · rfl

/-! ## Messages -/

/-- A message is to be compressed by a pool: it has the size that was set, and the peer offered the
pool. -/
structure AsksFor (request : Request) (compression : Compression) (message : Bytes) (pool : Pool) :
    Prop where
  large : ∃ minBytes, compression.minBytes = some minBytes ∧ minBytes ≤ message.length
  offered : request.Offers compression.pools pool

/-- Whether a message is to be compressed is decided by offer, configuration and size. -/
theorem asksFor_iff {message : Bytes} {pool : Pool} :
    AsksFor request compression message pool ↔
      ((thresholdFor request compression).bind fun t => t.select? message) = some pool := by
  rw [Envelope.select?_eq_some_iff]
  constructor
  · rintro ⟨⟨minBytes, set, large⟩, offered⟩
    exact ⟨⟨minBytes, pool⟩, thresholdFor_eq_some_iff.mpr ⟨set, offered⟩, large, rfl⟩
  · rintro ⟨t, ht, large, rfl⟩
    obtain ⟨set, offered⟩ := thresholdFor_eq_some_iff.mp ht
    exact ⟨⟨t.minBytes, set, large⟩, offered⟩

theorem not_asksFor_of_select? {message : Bytes}
    (h : ((thresholdFor request compression).bind fun t => t.select? message) = none)
    (pool : Pool) : ¬ AsksFor request compression message pool := by
  rw [asksFor_iff, h]
  exact nofun

/-- What is asked for has its name in the headers. -/
theorem AsksFor.poolNames_eq {message : Bytes} {pool : Pool}
    (h : AsksFor request compression message pool) :
    poolNames request compression = [Utf8.encode pool.name] := by
  obtain ⟨minBytes, set, -⟩ := h.large
  have found : thresholdFor request compression = some ⟨minBytes, pool⟩ :=
    thresholdFor_eq_some_iff.mpr ⟨set, h.offered⟩
  rw [poolNames, found]
  rfl

/-- A message of a response was compressed, as was asked for, by a pool that the headers name. -/
structure CompressedBy (pool : Pool) (request : Request) (compression : Compression)
    (sent : Http.WireResponse) (message packed : Bytes) : Prop where
  asked : AsksFor request compression message pool
  named : sent.headers.values request.protocol.encodingField = [Utf8.encode pool.name]
  made : pool.compress message = .ok packed

/-- A frame holds a message as it is, for which no pool was asked, or is marked as compressed and
holds what the pool made of it. -/
def HoldsMessage (request : Request) (compression : Compression) (sent : Http.WireResponse)
    (message : Bytes) (f : UInt8 × Bytes) : Prop :=
  f = (0, message) ∧ (∀ pool, ¬ AsksFor request compression message pool) ∨
    f.1 = compressedFlag ∧ ∃ pool, CompressedBy pool request compression sent message f.2

/-- The frames of a body, the last one apart, hold the messages. -/
theorem frames_of_encode (framed : request.protocol.isEnveloped = true)
    (encoded : r.encode request compression = .ok sent)
    (unnamed : r.headers.values request.protocol.encodingField = []) :
    ∃ fs, List.Forall₂ (HoldsMessage request compression sent) r.messages fs ∧
      sent.body =
        ((fs ++ (r.lastFrame? request.protocol).toList).map fun f => frame f.1 f.2).flatten := by
  have names := values_encodingField framed encoded unnamed
  rw [encode_eq framed, bind_eq_ok_iff] at encoded
  obtain ⟨bytes, packed, made⟩ := encoded
  obtain ⟨fs, frames, rfl⟩ := framed_of_packAll (fun _ _ => Envelope.framed_of_pack) packed
  cases made
  refine ⟨fs, ?_, body_around r request compression fs⟩
  by_cases silent : r.messages = []
  · rw [silent] at frames ⊢
    cases frames
    exact .nil
  · have only : ¬ r.IsHeadersOnly request := fun only => silent only.2.1
    rw [if_neg only, List.append_nil] at names
    refine frames.imp fun m f holds => ?_
    rcases holds with ⟨plain, none⟩ | ⟨flags, pool, selected, made⟩
    · exact .inl ⟨plain, not_asksFor_of_select? none⟩
    · have asked := asksFor_iff.mpr selected
      rw [asked.poolNames_eq] at names
      exact .inr ⟨flags, pool, asked, names, made⟩

/-! ## Whole bodies -/

/-- The body of a response in which nothing is compressed. -/
def plainBody (r : Response) : Protocol → Bytes
  | .connect =>
    match r.failure with
    | some f => f.encodeJson
    | none => r.messages.head?.getD []
  | p =>
    let fs := r.messages.map (Prod.mk 0) ++ (r.lastFrame? p).toList
    (fs.map fun f => frame f.1 f.2).flatten

theorem plainBody_of_isEnveloped (r : Response) {p : Protocol} (framed : p.isEnveloped = true) :
    let fs := r.messages.map (Prod.mk 0) ++ (r.lastFrame? p).toList
    r.plainBody p = (fs.map fun f => frame f.1 f.2).flatten := by
  cases p with
  | connect => cases framed
  | _ => rfl

/-- Neither the media type nor the trailers stand in the field for the name. -/
theorem values_contentEncoding_embedTrailers
    (unnamed : r.headers.values FieldName.contentEncoding = []) (type : String) :
    (embedTrailers (r.headers.set FieldName.contentType type) r.trailers).values
      FieldName.contentEncoding = [] := by
  have plain : Text.stripStart? FieldName.trailerStem
      (Text.lower FieldName.contentEncoding).toList = none := by decide
  rw [values_embedTrailers _ _ plain, Metadata.values_set_of_ne (by decide), unnamed]

/-- A body holds a message as it is and under no name, because no pool was asked for it or the pool
has failed, or it holds what the pool made of it. -/
def IsMessage (request : Request) (compression : Compression) (sent : Http.WireResponse)
    (message : Bytes) : Prop :=
  sent.body = message ∧ sent.headers.values request.protocol.encodingField = [] ∧
      (∀ pool, AsksFor request compression message pool →
        ∃ reason, pool.compress message = .error reason) ∨
    ∃ pool, CompressedBy pool request compression sent message sent.body

theorem isMessage_encodeMessage (unary : request.protocol = .connect) {headers : Metadata}
    (unnamed : headers.values FieldName.contentEncoding = []) (message : Bytes) :
    IsMessage request compression
      (encodeMessage message headers (thresholdFor request compression)) message := by
  have field : request.protocol.encodingField = FieldName.contentEncoding := by rw [unary]; rfl
  unfold IsMessage encodeMessage
  rw [field]
  cases selected : (thresholdFor request compression).bind fun t => t.select? message with
  | none =>
    refine .inl ⟨rfl, unnamed, ?_⟩
    intro pool asked
    exact absurd asked (not_asksFor_of_select? selected pool)
  | some pool =>
    have asked := asksFor_iff.mpr selected
    simp only
    cases packed : pool.compress message with
    | error reason =>
      refine .inl ⟨rfl, unnamed, ?_⟩
      intro other asked'
      have same := (asksFor_iff.mp asked').symm.trans selected
      exact ⟨reason, by rw [Option.some.inj same, packed]⟩
    | ok shrunk =>
      refine .inr ⟨pool, asked, ?_, packed⟩
      rw [field]
      show (headers.set FieldName.contentEncoding pool.name).values FieldName.contentEncoding = _
      rw [Metadata.values_set (by decide) (all_isFieldByte asked.offered.isVisible), if_pos rfl]

/-- The body of a Connect call holds the first message, or it is the failure, under no name. -/
theorem body_of_encode (unary : request.protocol = .connect)
    (encoded : r.encode request compression = .ok sent)
    (unnamed : r.headers.values request.protocol.encodingField = []) :
    match r.failure with
    | some f => sent.body = f.encodeJson ∧ sent.headers.values request.protocol.encodingField = []
    | none => IsMessage request compression sent (r.messages.head?.getD []) := by
  have field : request.protocol.encodingField = FieldName.contentEncoding := by rw [unary]; rfl
  have made : sent = encodeUnary r (r.headers.set FieldName.contentType
      (Protocol.connect.contentType request.codec)) (thresholdFor request compression) := by
    unfold encode at encoded
    simp only [unary] at encoded
    exact (Except.ok.inj encoded).symm
  rw [field] at unnamed
  have still := values_contentEncoding_embedTrailers unnamed
    (Protocol.connect.contentType request.codec)
  rw [made]
  unfold encodeUnary
  cases failed : r.failure with
  | some f =>
    refine ⟨rfl, ?_⟩
    rw [field]
    show (Metadata.set _ _ _).values _ = []
    rw [Metadata.values_set_of_ne (by decide), still]
  | none => exact isMessage_encodeMessage unary still _

/-- If no pool is offered, all frames are plain. -/
theorem frames_eq_of_declines (h : request.Declines compression.pools)
    {fs : List (UInt8 × Bytes)}
    (frames : List.Forall₂ (HoldsMessage request compression sent) r.messages fs) :
    fs = r.messages.map (Prod.mk 0) := by
  rw [eq_comm, ← List.forall₂_eq_eq_eq, List.forall₂_map_left_iff]
  refine frames.imp fun m f holds => ?_
  rcases holds with ⟨plain, -⟩ | ⟨-, pool, compressed⟩
  · exact plain.symm
  · exact absurd compressed.asked.offered (Request.not_offers_of_declines h)

theorem values_encodingField_of_declines (h : request.Declines compression.pools)
    (framed : request.protocol.isEnveloped = true)
    (encoded : r.encode request compression = .ok sent)
    (unnamed : r.headers.values request.protocol.encodingField = []) :
    sent.headers.values request.protocol.encodingField =
      if r.IsHeadersOnly request then r.trailers.values request.protocol.encodingField else [] := by
  have none : poolNames request compression = [] := by
    rw [poolNames, thresholdFor_of_declines h]
    rfl
  rw [values_encodingField framed encoded unnamed, none, List.nil_append]

/-- The frame that ends a stream is never compressed. -/
theorem plain_lastFrame {p : Protocol} :
    ∀ last ∈ r.lastFrame? p, last.1 &&& compressedFlag = 0 := by
  intro last hlast
  cases p with
  | connect => cases hlast
  | grpc => cases hlast
  | connectStream =>
    cases hlast
    show Envelope.endStreamFlag &&& compressedFlag = 0
    decide
  | grpcWeb =>
    cases hlast
    show Envelope.trailersFlag &&& compressedFlag = 0
    decide

theorem plain_of_declines (h : request.Declines compression.pools)
    (unary : request.protocol = .connect) (encoded : r.encode request compression = .ok sent)
    (unnamed : r.headers.values request.protocol.encodingField = []) :
    sent.body = r.plainBody .connect ∧
      sent.headers.values request.protocol.encodingField = [] := by
  have body := body_of_encode unary encoded unnamed
  unfold plainBody
  cases failed : r.failure with
  | some f =>
    rw [failed] at body
    exact body
  | none =>
    rw [failed] at body
    rcases body with ⟨plain, named, -⟩ | ⟨pool, compressed⟩
    · exact ⟨plain, named⟩
    · exact absurd compressed.asked.offered (Request.not_offers_of_declines h)

/-- A server compresses what the peer offered, and says so. In frames, of which the last one is
never marked, a message is compressed exactly if it has the size that was set and the accept header
settles on a pool, and then this pool made what the frame holds and is named in the headers. A whole
body is compressed on the same terms, unless the pool fails, and a failure never is. If the peer
declines then nothing is compressed, and the field for the name holds nothing but what a handler's
trailers have put there, where they are sent as headers. -/
theorem compressed_as_offered (encoded : r.encode request compression = .ok sent)
    (unnamed : r.headers.values request.protocol.encodingField = []) :
    (request.protocol.isEnveloped = true → ∃ fs,
      List.Forall₂ (HoldsMessage request compression sent) r.messages fs ∧
      sent.body =
        ((fs ++ (r.lastFrame? request.protocol).toList).map fun f => frame f.1 f.2).flatten ∧
      ∀ last ∈ r.lastFrame? request.protocol, last.1 &&& compressedFlag = 0) ∧
    (request.protocol = .connect →
      match r.failure with
      | some f =>
        sent.body = f.encodeJson ∧ sent.headers.values request.protocol.encodingField = []
      | none => IsMessage request compression sent (r.messages.head?.getD [])) ∧
    (request.Declines compression.pools →
      sent.body = r.plainBody request.protocol ∧
        sent.headers.values request.protocol.encodingField =
          if r.IsHeadersOnly request then r.trailers.values request.protocol.encodingField
          else []) := by
  refine ⟨?_, fun unary => body_of_encode unary encoded unnamed, ?_⟩
  · intro framed
    obtain ⟨fs, frames, body⟩ := frames_of_encode framed encoded unnamed
    exact ⟨fs, frames, body, plain_lastFrame⟩
  intro declines
  by_cases unary : request.protocol = .connect
  · have only : ¬ r.IsHeadersOnly request := by
      rintro ⟨grpc, -⟩
      rw [unary] at grpc
      cases grpc
    have plain := plain_of_declines declines unary encoded unnamed
    rw [← unary] at plain
    rwa [if_neg only]
  · have framed : request.protocol.isEnveloped = true := bne_iff_ne.mpr unary
    obtain ⟨fs, frames, body⟩ := frames_of_encode framed encoded unnamed
    rw [frames_eq_of_declines declines frames] at body
    exact ⟨body.trans (r.plainBody_of_isEnveloped framed).symm,
      values_encodingField_of_declines declines framed encoded unnamed⟩

/-- A Connect call that refuses one pool and would rather have another than none. -/
def choosyCall : Request where
  protocol := .connect
  service := "s"
  method := "m"
  codec := "proto"
  contentType := "application/proto"
  headers := .ofTexts [(FieldName.acceptEncoding, "hex;q=0, br;q=1, flip, identity")]
  timeout := none
  compression := none
  messages := []

/-- Two pools, for what has at least two octets. -/
def twoPools : Compression := ⟨⟨[.hexadecimal "hex", .reversing "flip"]⟩, some 2⟩

theorem compressed_as_offered_choosy :
    ∃ sent, (ofMessage [1, 2, 3]).encode choosyCall twoPools = .ok sent ∧ ∃ pool,
      pool.name = "flip" ∧ CompressedBy pool choosyCall twoPools sent [1, 2, 3] [3, 2, 1] := by
  have made : ((ofMessage [1, 2, 3]).encode choosyCall twoPools).toOption.map (fun sent =>
      (sent.body, sent.headers.values FieldName.contentEncoding)) =
        some ([3, 2, 1], [Utf8.encode "flip"]) := by decide +kernel
  obtain ⟨sent, encoded, seen⟩ := ok_of_toOption made
  obtain ⟨body, named⟩ := Prod.mk.inj seen
  obtain ⟨-, whole, -⟩ := compressed_as_offered encoded rfl
  refine ⟨sent, encoded, ?_⟩
  rcases whole rfl with ⟨plain, -⟩ | ⟨pool, compressed⟩
  · rw [body] at plain
    exact absurd plain (by decide)
  · have name := compressed.named.symm.trans named
    rw [body] at compressed
    exact ⟨pool, Utf8.encode_injective (List.singleton_inj.mp name), compressed⟩

/-- A gRPC call that accepts nothing. -/
def bareCall : Request := { choosyCall with protocol := .grpc, headers := .empty }

/-- A failure without messages, among whose trailers is the field that names a pool. -/
def namingFailure : Response :=
  { ofFailure (.new .notFound "gone") with trailers := .ofTexts [(FieldName.grpcEncoding, "gzip")] }

/-- The handler's trailer is sent as a header, although nothing was accepted. -/
theorem trailer_names_encoding :
    ¬ ∀ sent, namingFailure.encode bareCall twoPools = .ok sent →
      namingFailure.headers.values bareCall.protocol.encodingField = [] →
      bareCall.headers.text? bareCall.protocol.acceptField = none →
      sent.headers.values bareCall.protocol.encodingField = [] := by
  intro neverNamed
  have encoded := @encode_silent namingFailure bareCall twoPools rfl rfl _ rfl
  have none := neverNamed _ encoded rfl rfl
  exact absurd none (by decide +kernel)

end Response

end RpcWire.Server
