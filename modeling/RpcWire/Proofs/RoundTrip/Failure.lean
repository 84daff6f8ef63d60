import RpcWire.Proofs.Client.Success
import RpcWire.Proofs.RoundTrip.Response
import RpcWire.Proofs.Session.Truncation

/-!
# Failures are not taken for successes

What a server makes of a handler's failure is a failure to a client of the same
protocol, whatever messages, headers and trailers the handler adds
(`failure_seen`): the status that the server writes replaces one that the
handler has set.

There is one exception. A failure of gRPC without messages is told of in the
headers, to which the status is added and in which it does not replace the
handler's. So a handler that has set the status to zero there has its failure
taken for a success by a stream (`failure_hidden`).
-/

namespace RpcWire

variable {σ : Type}

open Envelope (Fits FitsPacked Sealed IsWhole frame Splitter)
open Server.Response (addStatus numberText lastFrame? thresholdFor headersFor Sent)

/-! ## The status of a failure -/

namespace Metadata

theorem saysOk_iff_of_text? {m : Metadata} {status : String}
    (h : m.text? FieldName.grpcStatus = some status) :
    m.SaysOk ↔ Completion.codeOfText status = none := by
  unfold SaysOk
  rw [h, Completion.codeOfText_eq_none_iff]
  rfl

/-- Where the status of a failure is read, no success is. -/
theorem not_saysOk_of_text? {m : Metadata} {f : Failure}
    (h : m.text? FieldName.grpcStatus = some (numberText (some f))) : ¬ m.SaysOk := by
  rw [saysOk_iff_of_text? h, Completion.codeOfText_numberText]
  intro none
  cases none

theorem not_saysOk_empty : ¬ Metadata.empty.SaysOk := by decide

end Metadata

namespace Server.Response

theorem text?_addStatus (trailers : Metadata) (f : Option Failure) :
    (addStatus trailers f).text? FieldName.grpcStatus = some (numberText f) :=
  Metadata.text?_of_values (isVisible_numberText f) (values_status_addStatus trailers f)

/-- Added to headers, the status of a failure is read unless the handler has set one. -/
theorem saysOk_merge_addStatus (headers trailers : Metadata) (f : Failure) :
    (headers.merge (addStatus trailers (some f))).SaysOk ↔ headers.SaysOk := by
  by_cases unset : headers.values FieldName.grpcStatus = []
  · have read : (headers.merge (addStatus trailers (some f))).text? FieldName.grpcStatus =
        some (numberText (some f)) := by
      rw [Metadata.text?_merge_of_none unset, text?_addStatus]
    have silent : ¬ headers.SaysOk := by
      unfold Metadata.SaysOk
      rw [Metadata.text?_of_values_nil unset]
      intro none
      cases none
    exact iff_of_false (Metadata.not_saysOk_of_text? read) silent
  · exact Metadata.saysOk_congr (Metadata.text?_merge_of_ne_nil unset _)

/-- Whether headers say success is up to the handler: the server adds no status to them. -/
theorem saysOk_headersFor (r : Response) (request : Request) (compression : Compression) :
    (r.headersFor request compression).SaysOk ↔ r.headers.SaysOk := by
  refine Metadata.saysOk_congr (Metadata.text?_eq_of_values (values_headersFor ?_ ?_))
  · decide
  · cases request.protocol <;> decide

end Server.Response

/-! ## Streams that fail -/

/-- Events of which the first completion has a cause. -/
def Event.Fails {α : Type} (es : List (Event α)) : Prop :=
  ∃ cause trailers, es.find? Event.isComplete = some (.complete (some cause) trailers)

namespace Event.Fails

variable {h : StreamHook σ} {s : σ} {e : Event Bytes} {events : List (Event Bytes)}

theorem here {cause : Failure} {trailers : Metadata}
    (made : (h.event s e).1 = .complete (some cause) trailers) :
    Event.Fails (h.produce s (e :: events)) := by
  refine ⟨cause, trailers, ?_⟩
  rw [StreamHook.produce, made]
  rfl

/-- An event that does not end a stream as a success leaves the failure to what follows, or is the
failure. -/
theorem step (unclean : ∀ trailers, (h.event s e).1 ≠ .complete none trailers)
    (later : Event.Fails (h.produce (h.event s e).2 events)) :
    Event.Fails (h.produce s (e :: events)) := by
  cases made : (h.event s e).1 with
  | complete cause trailers =>
    cases cause with
    | some cause => exact here made
    | none => exact absurd made (unclean trailers)
  | headers | message =>
    obtain ⟨cause, trailers, found⟩ := later
    refine ⟨cause, trailers, ?_⟩
    rw [StreamHook.produce, made]
    exact found

/-- A stream fails that an event ends as a failure, if no event before it ends it as a success. -/
theorem run (unclean : ∀ e ∈ events, ∀ s trailers, (h.event s e).1 ≠ .complete none trailers)
    {last : Event Bytes}
    (ended : ∀ s, ∃ cause trailers, (h.event s last).1 = .complete (some cause) trailers)
    (s : σ) (rest : List (Event Bytes)) : Event.Fails (h.produce s (events ++ last :: rest)) := by
  induction events generalizing s with
  | nil =>
    obtain ⟨cause, trailers, made⟩ := ended s
    exact here made
  | cons e events ih =>
    refine step (unclean e List.mem_cons_self s) ?_
    exact ih (fun e he => unclean e (List.mem_cons_of_mem _ he)) _

end Event.Fails

/-! ## Events that end no stream as a success -/

/-- A frame is read with the flags that it was written with. -/
theorem Envelope.flags_of_unpack_frame {flags : UInt8} {payload rest : Bytes} (fits : Fits payload)
    {pool : Option Pool} {e : Envelope} (h : unpack (frame flags payload) pool = (rest, .ok e)) :
    e.flags = flags := by
  have header := header?_frame fits flags []
  rw [List.append_nil] at header
  have read := unpack_whole (isWhole_frame fits flags) header [] pool
  rw [List.append_nil, h] at read
  exact flags_of_opened (Prod.mk.inj read).2.symm

section Unclean

variable {c : ClientConfig σ}

/-- Headers are never turned into a clean end. -/
theorem unclean_headers (m : StreamMemory) (headers trailers : Metadata) :
    (protocolEvent c m (.headers headers)).1 ≠ .complete none trailers := by
  intro made
  by_cases family : c.family = .connect
  · rw [Connect.protocolEvent_eq family] at made
    rcases Connect.clean_streamEvent made with passed | ⟨_, _, _, _, framed, -⟩
    · cases passed
    · cases framed
  · rw [Grpc.protocolEvent_eq family] at made
    obtain ⟨_, ends, -⟩ := Grpc.clean_streamEvent_iff.mp ⟨trailers, made⟩
    cases ends

/-- A frame of gRPC does not end a stream as a success, whatever is in it. -/
theorem unclean_grpc (family : c.family = .grpc) (m : StreamMemory) (buffer : Bytes)
    (trailers : Metadata) : (protocolEvent c m (.message buffer)).1 ≠ .complete none trailers := by
  intro made
  rw [Grpc.protocolEvent_eq (by rw [family]; decide)] at made
  obtain ⟨_, ends, -⟩ := Grpc.clean_streamEvent_iff.mp ⟨trailers, made⟩
  cases ends with
  | frame web => simp [family, Family.protocol] at web

/-- Nor does a frame with the flags of a message. -/
theorem unclean_frame {flags : UInt8} (hflags : flags = 0 ∨ flags = Envelope.compressedFlag)
    {payload : Bytes} (fits : Fits payload) (m : StreamMemory) (trailers : Metadata) :
    (protocolEvent c m (.message (frame flags payload))).1 ≠ .complete none trailers := by
  have goesOn : ∀ {rest e pool}, Envelope.unpack (frame flags payload) pool = (rest, .ok e) →
      e.has Envelope.endStreamFlag = false ∧ Grpc.isTrailers e = false := by
    intro rest e pool read
    have same := Envelope.flags_of_unpack_frame fits read
    exact Envelope.goesOn (by rwa [same])
  intro made
  by_cases family : c.family = .connect
  · rw [Connect.protocolEvent_eq family] at made
    rcases Connect.clean_streamEvent made with passed | ⟨_, _, e, _, framed, read, last, -⟩
    · cases passed
    · cases framed
      rw [(goesOn read).1] at last
      cases last
  · rw [Grpc.protocolEvent_eq family] at made
    obtain ⟨_, ends, -⟩ := Grpc.clean_streamEvent_iff.mp ⟨trailers, made⟩
    cases ends with
    | frame _ taken last =>
      obtain ⟨read, -⟩ := Protocol.takeFrame_eq_ok_iff.mp taken
      rw [(goesOn read).2] at last
      cases last

end Unclean

/-! ## Events that end a stream as a failure -/

/-- A stream that ends where no success is told of ends as a failure. -/
theorem completeFrom_fails_iff {s : Grpc.StreamState} {trailers : Metadata} :
    (∃ cause given, Grpc.completeFrom s trailers = .complete (some cause) given) ↔
      ¬ (Completion.source s.headers s.seenMessage trailers).SaysOk := by
  rw [← Grpc.clean_completeFrom_iff]
  constructor
  · rintro ⟨cause, given, failing⟩ ⟨other, clean⟩
    rw [failing] at clean
    cases clean
  · intro unclean
    cases made : Grpc.completeFrom s trailers with
    | headers | message => cases made
    | complete cause given =>
      cases cause with
      | some cause => exact ⟨cause, given, rfl⟩
      | none => exact absurd ⟨given, made⟩ unclean

/-- Trailers with the status of a failure end a stream as a failure. -/
theorem completeFrom_fails {s : Grpc.StreamState} {trailers : Metadata} {f : Failure}
    (h : trailers.text? FieldName.grpcStatus = some (numberText (some f))) :
    ∃ cause given, Grpc.completeFrom s trailers = .complete (some cause) given := by
  -- a status is there, so the headers are not asked for one
  have source : Completion.source s.headers s.seenMessage trailers = trailers := by
    unfold Completion.source
    rw [Metadata.isEmpty_of_text? h, Bool.and_false]
    rfl
  rw [completeFrom_fails_iff, source]
  exact Metadata.not_saysOk_of_text? h

section Ended

variable {c : ClientConfig σ} {r : Server.Response} {f : Failure}

theorem ended_grpc (family : c.family = .grpc) (trailers : Metadata) (m : StreamMemory) :
    ∃ cause given, (protocolEvent c m (.complete none (addStatus trailers (some f)))).1 =
      .complete (some cause) given := by
  rw [protocolEvent_complete (by rw [family]; decide)]
  exact completeFrom_fails (Server.Response.text?_addStatus trailers (some f))

/-- The last frame of a failure ends a stream of Connect or gRPC-Web as a failure. -/
theorem ended_lastFrame (failed : r.failure = some f) {last : UInt8 × Bytes}
    (h : r.lastFrame? (c.family.protocol true) = some last) (fits : Fits last.2)
    (m : StreamMemory) :
    ∃ cause given, (protocolEvent c m (.message (frame last.1 last.2))).1 =
      .complete (some cause) given := by
  cases family : c.family with
  | connect =>
    rw [family] at h
    cases h
    obtain ⟨cause, given, more, events, reports, -⟩ := concludes_connect family r m fits []
    rw [failed] at reports
    cases cause with
    | none => exact absurd reports id
    | some cause => exact ⟨cause, given, (List.cons.inj events).1⟩
  | grpc =>
    rw [family] at h
    cases h
  | grpcWeb =>
    rw [family] at h
    cases h
    have read := Completion.text?_status_parse_encode r.trailers r.failure
    rw [failed] at read
    rw [protocolEvent_trailers family fits, failed]
    exact completeFrom_fails read

end Ended

/-! ## Streams of a failed response -/

variable {c : ClientConfig σ} {request : Server.Request} {compression : Server.Compression}
  {r : Server.Response} {sent : Http.WireResponse} {f : Failure}

/-- What a stream is given of a response whose body arrives in chunks. -/
def delivered (sent : Http.WireResponse) (chunks : List Bytes) : List (Event Bytes) :=
  .headers sent.headers ::
    ((Splitter.fresh.pushAll chunks).1.map .message ++ [.complete none sent.trailers])

/-- The status of a failure of gRPC is hidden from a stream: it stands in the headers, and a
handler has set the status to zero there. -/
structure Hides (c : ClientConfig σ) (r : Server.Response) (sent : Http.WireResponse) : Prop where
  family : c.family = .grpc
  silent : r.messages = []
  type : Protocol.grpc.accepts c.encoding (mediaTypeOf sent.headers) = true
  ok : r.headers.SaysOk

/-- A stream whose last frame tells of a failure fails. -/
theorem fails_of_lastFrame (failed : r.failure = some f)
    (protocol : request.protocol = c.family.protocol true)
    (encoded : r.encode request compression = .ok sent) {last : UInt8 × Bytes}
    (hl : r.lastFrame? request.protocol = some last)
    (fits : Fits last.2 ∧ ∀ m ∈ r.messages, FitsPacked (thresholdFor request compression) m)
    {chunks : List Bytes} (body : chunks.flatten = sent.body) :
    Event.Fails ((protocolStream c).produce .fresh (delivered sent chunks)) := by
  have framed : request.protocol.isEnveloped = true := by
    rw [protocol]
    cases c.family <;> decide
  obtain ⟨fs, frames, whole, -⟩ := Server.Response.sent_of_encode framed encoded
  rw [hl, Option.toList_some] at whole
  have small := Envelope.fits_of_sealed frames fits.2
  have cut := Splitter.pushAll_frames (body.trans whole) (by
    intro g hg
    rcases List.mem_append.mp hg with hg | hg
    · exact small g hg
    · rw [List.mem_singleton.mp hg]
      exact fits.1)
  -- the frames of messages end nothing, and the last frame ends the stream as a failure
  have events : delivered sent chunks = (.headers sent.headers ::
      fs.map fun g => .message (frame g.1 g.2)) ++
        .message (frame last.1 last.2) :: [.complete none sent.trailers] := by
    simp [delivered, cut, Function.comp_def]
  rw [events]
  refine Event.Fails.run ?_ (ended_lastFrame failed (protocol ▸ hl) fits.1) _ _
  intro e he m trailers
  rcases List.mem_cons.mp he with rfl | he
  · exact unclean_headers m sent.headers trailers
  · obtain ⟨g, hg, rfl⟩ := List.mem_map.mp he
    obtain ⟨message, -, hsealed⟩ := Envelope.exists_of_sealed frames g hg
    exact unclean_frame hsealed.flags (small g hg) m trailers

/-- A stream of gRPC fails whose trailers tell of a failure. -/
theorem fails_of_trailers (family : c.family = .grpc)
    (trailers : sent.trailers = addStatus r.trailers (some f)) (chunks : List Bytes) :
    Event.Fails ((protocolStream c).produce .fresh (delivered sent chunks)) := by
  let begins : List (Event Bytes) :=
    .headers sent.headers :: (Splitter.fresh.pushAll chunks).1.map .message
  have unclean : ∀ e ∈ begins, ∀ (m : StreamMemory) (given : Metadata),
      ((protocolStream c).event m e).1 ≠ .complete none given := by
    intro e he m given
    rcases List.mem_cons.mp he with rfl | he
    · exact unclean_headers m sent.headers given
    · obtain ⟨buffer, -, rfl⟩ := List.mem_map.mp he
      exact unclean_grpc family m buffer given
  refine Event.Fails.run unclean ?_ _ []
  intro m
  rw [trailers]
  exact ended_grpc family r.trailers m

/-- Without a body and without trailers, a stream of gRPC fails unless its headers are accepted and
tell of a success. -/
theorem fails_headers_iff (family : c.family = .grpc) (headers : Metadata) :
    Event.Fails ((protocolStream c).produce .fresh [.headers headers, .complete none .empty]) ↔
      ¬ (Protocol.grpc.accepts c.encoding (mediaTypeOf headers) = true ∧ headers.SaysOk) := by
  have other : c.family ≠ .connect := by rw [family]; decide
  have first : protocolEvent c .fresh (.headers headers) =
      Grpc.streamHeaders .grpc c .fresh headers := by
    rw [Grpc.protocolEvent_eq other, family]
    rfl
  rw [← Protocol.checkType_eq_ok_iff]
  cases checked : Protocol.grpc.checkType c.encoding headers with
  | error cause =>
    have made : (protocolEvent c .fresh (.headers headers)).1 = .fail cause := by
      rw [first, Grpc.streamHeaders, checked]
    refine iff_of_true (Event.Fails.here made) ?_
    rintro ⟨accepted, -⟩
    cases accepted
  | ok _ =>
    let memory : StreamMemory := ⟨Grpc.poolOf c headers, headers, false⟩
    have made : protocolEvent c .fresh (.headers headers) = (.headers headers, memory) := by
      rw [first, Grpc.streamHeaders, checked]
      rfl
    have ended : (protocolEvent c memory (.complete none .empty)).1 =
        Grpc.completeFrom memory .empty := protocolEvent_complete other memory .empty
    have shown : (protocolStream c).produce .fresh [.headers headers, .complete none .empty] =
        [.headers headers, Grpc.completeFrom memory .empty] := by
      show [(protocolEvent c .fresh (.headers headers)).1, (protocolEvent c
        (protocolEvent c .fresh (.headers headers)).2 (.complete none .empty)).1] = _
      rw [made, ended]
    -- the status is looked for in the headers
    have fails : (∃ cause given, Grpc.completeFrom memory .empty = .complete (some cause) given) ↔
        ¬ headers.SaysOk := completeFrom_fails_iff
    rw [shown, and_iff_right rfl, ← fails]
    constructor
    · rintro ⟨cause, trailers, found⟩
      exact ⟨cause, trailers, Option.some.inj found⟩
    · rintro ⟨cause, trailers, completed⟩
      exact ⟨cause, trailers, congrArg some completed⟩

/-- A failure of gRPC that stands in the headers alone fails a stream exactly if the handler does
not hide it. -/
theorem fails_silent_iff (family : c.family = .grpc) (protocol : request.protocol = .grpc)
    (silent : r.messages = []) (failed : r.failure = some f)
    (encoded : r.encode request compression = .ok sent) {chunks : List Bytes}
    (body : chunks.flatten = sent.body) :
    Event.Fails ((protocolStream c).produce .fresh (delivered sent chunks)) ↔ ¬ Hides c r sent := by
  rw [Server.Response.encode_silent protocol silent failed] at encoded
  have nothing : sent.body = [] ∧ sent.trailers = .empty := by
    cases encoded
    exact ⟨rfl, rfl⟩
  have events : delivered sent chunks = [.headers sent.headers, .complete none .empty] := by
    rw [delivered, Splitter.pushAll_fresh, body, nothing.1, nothing.2, Envelope.splitWhole_nil]
    rfl
  have told : sent.headers.SaysOk ↔ r.headers.SaysOk := by
    cases encoded
    rw [Server.Response.saysOk_merge_addStatus, Server.Response.saysOk_headersFor]
  rw [events, fails_headers_iff family, told, not_iff_not]
  constructor
  · rintro ⟨type, ok⟩
    exact ⟨family, silent, type, ok⟩
  · intro hides
    exact ⟨hides.type, hides.ok⟩

/-! ## Unary calls -/

theorem Connect.cause_unaryResponse_ne {r : Http.Response} {status : Nat}
    (hs : r.status = some status)
    (other : status ≠ 200) : (unaryResponse c r).cause ≠ none := by
  have failing : ∀ headers trailers, ∃ cause,
      outcome c status headers trailers r.body = .error cause := by
    intro headers trailers
    unfold outcome
    simp only [other, ne_eq, not_false_eq_true, if_true]
    cases expand (c.pools.resolve? (headers.text? FieldName.contentEncoding)) r.body with
    | error cause => exact ⟨cause, rfl⟩
    | ok body => exact ⟨_, rfl⟩
  unfold unaryResponse
  cases hc : r.cause with
  | some cause =>
    simp only
    rw [hc]
    intro none
    cases none
  | none =>
    obtain ⟨cause, failing⟩ := failing (splitTrailers r.headers r.trailers).1
      (splitTrailers r.headers r.trailers).2
    rw [hs]
    simp only [failing]
    intro none
    cases none

theorem unaryResponse_fails (protocol : request.protocol = .grpc) (failed : r.failure = some f)
    (encoded : r.encode request compression = .ok sent) :
    (Grpc.unaryResponse c sent.toResponse).cause ≠ none := by
  intro clean
  obtain ⟨succeeds, -⟩ := (Grpc.cause_unaryResponse_iff rfl).mp clean
  have ok : sent.trailers.SaysOk := succeeds.ok
  obtain ⟨fs, -, -, rest⟩ := Server.Response.sent_of_encode (by rw [protocol]; rfl) encoded
  rcases rest with ⟨-, trailers⟩ | ⟨-, -, -, none⟩
  · rw [trailers protocol, failed] at ok
    exact Metadata.not_saysOk_of_text? (Server.Response.text?_addStatus _ _) ok
  · -- a unary call does not look for the status in the headers
    rw [none] at ok
    exact Metadata.not_saysOk_empty ok

theorem unaryWebResponse_fails (protocol : request.protocol = .grpcWeb)
    (failed : r.failure = some f)
    (encoded : r.encode request compression = .ok sent)
    (fits : Fits (TrailerText.encode (addStatus r.trailers r.failure)) ∧
      ∀ m ∈ r.messages, FitsPacked (thresholdFor request compression) m) :
    (Grpc.unaryWebResponse c sent.toResponse).cause ≠ none := by
  intro clean
  obtain ⟨_, _, succeeds, first, last, e, g, joined, opened, -, -, closing, -, trailers⟩ :=
    (Grpc.cause_unaryWebResponse_iff rfl).mp clean
  obtain ⟨fs, frames, whole, -⟩ := Server.Response.sent_of_encode (by rw [protocol]; rfl) encoded
  let payload := TrailerText.encode (addStatus r.trailers r.failure)
  rw [protocol] at whole
  -- the body is made of its frames in one way only, so the last one is the server's
  have same : [first, last] =
      (fs ++ [(Envelope.trailersFlag, payload)]).map fun g => frame g.1 g.2 := by
    apply Envelope.wholes_injective
    · intro h hh
      rcases List.mem_cons.mp hh with rfl | hh
      · exact opened.1
      · rw [List.mem_singleton.mp hh]
        exact closing.1
    · intro h hh
      obtain ⟨g, hg, rfl⟩ := List.mem_map.mp hh
      rcases List.mem_append.mp hg with hg | hg
      · exact Envelope.isWhole_frame (Envelope.fits_of_sealed frames fits.2 g hg) _
      · rw [List.mem_singleton.mp hg]
        exact Envelope.isWhole_frame fits.1 _
    · rw [List.flatten_cons, List.flatten_singleton, joined]
      exact whole
  have own : last = frame Envelope.trailersFlag payload := by
    simpa using congrArg List.getLast? same
  have plain : Envelope.trailersFlag &&& Envelope.compressedFlag = 0 := by decide
  have read := closing.2
  rw [own, Protocol.grpcWeb.takeFrame_frame fits.1 plain] at read
  cases read
  have ok := succeeds.ok
  rw [← trailers] at ok
  have status := Completion.text?_status_parse_encode r.trailers r.failure
  rw [failed] at status
  simp only [failed] at ok
  exact Metadata.not_saysOk_of_text? status ok

/-! ## All protocols -/

/-- A client of the same protocol takes what a server makes of a failure for a failure, whatever
messages, headers and trailers the handler adds: a unary call always, and a stream, however the
body is cut into chunks, unless the failure is hidden from it. Where a frame ends the body, the
lengths have to fit their frames. -/
theorem failure_seen (failed : r.failure = some f)
    (encoded : r.encode request compression = .ok sent)
    (fits : ∀ last ∈ r.lastFrame? request.protocol, Fits last.2 ∧
      ∀ m ∈ r.messages, FitsPacked (thresholdFor request compression) m) :
    (request.protocol = c.family.protocol false → ∀ {τ : Type} (m : τ),
      ((protocolUnary c).response m sent.toResponse).1.cause ≠ none) ∧
    (request.protocol = c.family.protocol true → ∀ chunks : List Bytes,
      chunks.flatten = sent.body →
        (Event.Fails ((protocolStream c).produce .fresh (delivered sent chunks)) ↔
          ¬ Hides c r sent)) := by
  refine ⟨?_, ?_⟩
  · intro protocol τ m
    unfold protocolUnary
    cases family : c.family with
    | connect =>
      rw [family] at protocol
      -- the failure has an HTTP status of its own
      have status : sent.toResponse.status = some f.code.httpStatus := by
        unfold Server.Response.encode at encoded
        simp only [protocol, Family.protocol] at encoded
        cases encoded
        simp only [Server.Response.encodeUnary, failed]
        rfl
      exact Connect.cause_unaryResponse_ne status f.code.httpStatus_ne_ok
    | grpc =>
      rw [family] at protocol
      exact unaryResponse_fails protocol failed encoded
    | grpcWeb =>
      rw [family] at protocol
      exact unaryWebResponse_fails protocol failed encoded (fits _ (by rw [protocol]; rfl))
  · intro protocol chunks body
    by_cases family : c.family = .grpc
    · rw [family] at protocol
      by_cases silent : r.messages = []
      · exact fails_silent_iff family protocol silent failed encoded body
      · refine iff_of_true ?_ (fun hides => silent hides.silent)
        obtain ⟨fs, -, -, rest⟩ := Server.Response.sent_of_encode (by rw [protocol]; rfl) encoded
        rcases rest with ⟨-, trailers⟩ | ⟨-, none, -⟩
        · refine fails_of_trailers (r := r) (f := f) family ?_ chunks
          rw [trailers protocol, failed]
        · exact absurd none silent
    · have ends : ∃ last, r.lastFrame? request.protocol = some last := by
        rw [protocol]
        cases hf : c.family with
        | connect => exact ⟨_, rfl⟩
        | grpc => exact absurd hf family
        | grpcWeb => exact ⟨_, rfl⟩
      obtain ⟨last, hl⟩ := ends
      refine iff_of_true ?_ (fun hides => family hides.family)
      exact fails_of_lastFrame failed protocol encoded hl (fits last hl) body

/-- A failure after one message, from a handler that has set the status to zero everywhere. -/
def boastful : Server.Response where
  messages := [[1]]
  failure := some (.new .notFound "gone")
  headers := .ofTexts [("grpc-status", "0")]
  trailers := .ofTexts [("grpc-status", "0")]

theorem failure_seen_web :
    ∃ sent, boastful.encode webCall ⟨.empty, none⟩ = .ok sent ∧
      ((protocolUnary webClient).response () sent.toResponse).1.cause ≠ none ∧
      Event.Fails ((protocolStream webClient).produce .fresh (delivered sent [sent.body])) := by
  cases encoded : boastful.encode webCall ⟨.empty, none⟩ with
  | error cause =>
    have succeeds : (boastful.encode webCall ⟨.empty, none⟩).toOption.isSome = true := by
      decide +kernel
    rw [encoded] at succeeds
    cases succeeds
  | ok sent =>
    obtain ⟨unary, stream⟩ := failure_seen (c := webClient) (r := boastful) rfl encoded (by
      intro last hl
      cases hl
      refine ⟨?_, ?_⟩
      · show List.length _ < 2 ^ 32
        decide +kernel
      · intro m hm
        rw [List.mem_singleton.mp hm]
        have short : ([1] : Bytes).length < 2 ^ 32 := by decide
        exact ⟨short, fun th hth => nomatch hth⟩)
    refine ⟨sent, rfl, unary rfl (), ?_⟩
    refine (stream rfl [sent.body] List.flatten_singleton).mpr ?_
    intro hides
    cases hides.silent

/-- The same without the message. -/
def silentBoast : Server.Response := { boastful with messages := [] }

/-- A handler that has set the status to zero in the headers, and then fails without a message, is
taken by a stream of gRPC for one that has succeeded. -/
theorem failure_hidden :
    ¬ ∀ (f : Failure) (sent : Http.WireResponse), silentBoast.failure = some f →
      silentBoast.encode flippingCall ⟨.empty, none⟩ = .ok sent →
        Event.Fails ((protocolStream flippingClient).produce .fresh (delivered sent [])) := by
  intro alwaysFails
  let headers := (silentBoast.headersFor flippingCall ⟨.empty, none⟩).merge
    (addStatus silentBoast.trailers (some (.new .notFound "gone")))
  have encoded : silentBoast.encode flippingCall ⟨.empty, none⟩ = .ok ⟨200, headers, [], .empty⟩ :=
    Server.Response.encode_silent rfl rfl rfl
  have hides : Hides flippingClient silentBoast ⟨200, headers, [], .empty⟩ :=
    ⟨rfl, rfl, by decide +kernel, by decide +kernel⟩
  have nothing : ([] : List Bytes).flatten = [] := rfl
  have fails := alwaysFails _ ⟨200, headers, [], .empty⟩ rfl encoded
  exact (fails_silent_iff rfl rfl rfl rfl encoded nothing).mp fails hides

end RpcWire
