import RpcWire.Proofs.Client.Stream
import RpcWire.Proofs.Except
import RpcWire.Proofs.Frame.Whole
import RpcWire.Proofs.Session.Order

/-!
# When a call of gRPC has succeeded

A client of gRPC or gRPC-Web takes a call for a success only if it was told so:
by a status that is there, visible, and zero (`Metadata.SaysOk`). It looks for
the status in the trailers, and in the headers if there are no trailers and no
message has come.

* `Completion.failure?_parse_eq_none_iff`: what the status has to say, and where;
* `Grpc.cause_unaryResponse_iff`, `Grpc.cause_unaryWebResponse_iff`: when a unary
  call succeeds;
* `Grpc.StreamState.ofSeen`: what a stream remembers, computed from the events that
  it has shown (`Grpc.streamEvent_ofSeen` for one event, `Grpc.after_fresh` for all);
* `Grpc.allHeaders_produce`: of the headers it is given it shows those it accepts;
* `Grpc.clean_streamEvent_iff`: which events end a stream without a cause;
* `success_iff_saysOk`: unary calls and streams together.
-/

namespace RpcWire

variable {σ : Type}

/-! ## The status -/

/-- The status of a call is there, visible, and zero. -/
def Metadata.SaysOk (m : Metadata) : Prop :=
  ((m.text? FieldName.grpcStatus).bind fun status => Number.integer? (Text.trim status.toList)) =
    some 0

instance (m : Metadata) : Decidable m.SaysOk := inferInstanceAs (Decidable (_ = _))

theorem Metadata.saysOk_congr {m other : Metadata}
    (h : m.text? FieldName.grpcStatus = other.text? FieldName.grpcStatus) :
    m.SaysOk ↔ other.SaysOk := by
  unfold SaysOk
  rw [h]

/-- Where the status of a response is looked for. -/
def Completion.source (headers : Metadata) (hasBody : Bool) (trailers : Metadata) : Metadata :=
  if !hasBody && trailers.isEmpty then headers else trailers

namespace Completion

theorem source_of_body (headers trailers : Metadata) :
    source headers true trailers = trailers := rfl

/-- A status text means success exactly if it is the number zero, blanks apart. -/
theorem codeOfText_eq_none_iff {status : String} :
    codeOfText status = none ↔ Number.integer? (Text.trim status.toList) = some 0 := by
  unfold codeOfText
  cases Number.integer? (Text.trim status.toList) with
  | none => simp
  | some n => simp [Code.ofNumber?_eq_none]

/-- A response is no failure exactly if its status is zero. -/
theorem failure?_parse_eq_none_iff {headers trailers : Metadata} {hasBody : Bool} :
    (parse headers hasBody trailers).failure? = none ↔
      (source headers hasBody trailers).SaysOk := by
  rw [failure?_eq_none_iff]
  have text : ∀ status, (source headers hasBody trailers).text? FieldName.grpcStatus = status →
      ((parse headers hasBody trailers).isOk = true ↔
        (status.bind fun status => Number.integer? (Text.trim status.toList)) = some 0) := by
    intro status h
    unfold source at h
    unfold parse isOk
    simp only [h]
    cases status with
    | none => simp
    | some status => simp [← codeOfText_eq_none_iff]
  exact text _ rfl

end Completion

/-! ## Frames -/

namespace Protocol

variable {p : Protocol} {pool : Option Pool} {buffer rest : Bytes} {e : Envelope}

theorem checkType_eq_ok_iff {encoding : Encoding} {headers : Metadata} :
    p.checkType encoding headers = .ok () ↔ p.accepts encoding (mediaTypeOf headers) = true := by
  unfold checkType
  by_cases accepted : p.accepts encoding (mediaTypeOf headers) = true
  · simp [accepted]
  · simp [accepted]

theorem takeFrame_eq_ok_iff :
    p.takeFrame buffer pool = .ok (rest, e) ↔
      Envelope.unpack buffer pool = (rest, .ok e) ∧ p.checkFrame e pool = .ok () := by
  unfold takeFrame
  rcases Envelope.unpack buffer pool with ⟨left, fault | read⟩
  · simp
  · simp only [Prod.mk.injEq, Except.ok.injEq]
    constructor
    · intro h
      cases checked : p.checkFrame read pool with
      | error cause =>
        rw [checked] at h
        cases h
      | ok _ =>
        rw [checked] at h
        cases h
        exact ⟨⟨rfl, rfl⟩, checked⟩
    · rintro ⟨⟨rfl, rfl⟩, checked⟩
      rw [checked]
      rfl

/-- Octets are one frame, out of which an envelope is taken. -/
def Opens (p : Protocol) (pool : Option Pool) (f : Bytes) (e : Envelope) : Prop :=
  Envelope.IsWhole f ∧ p.takeFrame f pool = .ok ([], e)

/-- A frame is taken exactly if the buffer begins with one that the protocol can open. -/
theorem takeFrame_eq_ok_iff_opens (nonempty : buffer ≠ []) :
    p.takeFrame buffer pool = .ok (rest, e) ↔ ∃ f, p.Opens pool f e ∧ f ++ rest = buffer := by
  constructor
  · intro h
    obtain ⟨unpacked, checked⟩ := takeFrame_eq_ok_iff.mp h
    obtain ⟨f, whole, joined, alone⟩ := Envelope.whole_of_unpack nonempty unpacked
    exact ⟨f, ⟨whole, takeFrame_eq_ok_iff.mpr ⟨alone, checked⟩⟩, joined⟩
  · rintro ⟨f, ⟨whole, taken⟩, rfl⟩
    obtain ⟨alone, checked⟩ := takeFrame_eq_ok_iff.mp taken
    obtain ⟨flags, header⟩ := whole.header
    -- what follows a whole frame does not change what is read from it
    have read := Envelope.unpack_whole whole header [] pool
    rw [List.append_nil, alone] at read
    refine takeFrame_eq_ok_iff.mpr ⟨?_, checked⟩
    rw [Envelope.unpack_whole whole header rest pool, ← (Prod.mk.inj read).2]

end Protocol

namespace Grpc

variable {c : ClientConfig σ}

/-! ## Unary calls -/

/-- A response says that a call has succeeded. -/
structure Succeeds (p : Protocol) (c : ClientConfig σ) (r : Http.Response) (trailers : Metadata) :
    Prop where
  status : r.status = some 200
  type : p.accepts c.encoding (mediaTypeOf r.headers) = true
  ok : trailers.SaysOk

theorem checkCompletion_eq_ok_iff {completion : Completion} :
    checkCompletion completion = .ok () ↔ completion.failure? = none := by
  unfold checkCompletion
  cases completion.failure? <;> simp

/-- A response is read on only with status 200 and a content type of the protocol. -/
theorem checkHead_eq_ok_iff {p : Protocol} {e : Encoding} {status : Nat} {headers : Metadata} :
    checkHead p e status headers = .ok () ↔
      status = 200 ∧ p.accepts e (mediaTypeOf headers) = true := by
  unfold checkHead
  by_cases ok : status = 200
  · simp [ok, Protocol.checkType_eq_ok_iff]
  · simp [ok]

theorem singleMessage_eq_ok_iff {pool : Option Pool} {body message : Bytes} :
    singleMessage pool body = .ok message ↔
      ∃ flags, Protocol.grpc.Opens pool body ⟨flags, message⟩ := by
  unfold singleMessage
  by_cases empty : body = []
  · have none_whole : ¬ Envelope.IsWhole [] := by decide
    simp [empty, Protocol.Opens, none_whole]
  · rw [if_neg empty, bind_eq_ok_iff]
    constructor
    · rintro ⟨⟨rest, flags, payload⟩, taken, alone⟩
      simp only at alone
      split at alone
      · next rest =>
        cases alone
        subst rest
        obtain ⟨f, opens, joined⟩ := (Protocol.takeFrame_eq_ok_iff_opens empty).mp taken
        rw [List.append_nil] at joined
        exact ⟨flags, joined ▸ opens⟩
      · cases alone
    · rintro ⟨flags, opens⟩
      exact ⟨([], ⟨flags, message⟩), opens.2, rfl⟩

theorem readResponse_of_status {read : Nat → Http.Response → Http.Response} {r : Http.Response}
    (arrived : r.cause = none) {status : Nat} (hs : r.status = some status) :
    readResponse read r = read status r := by
  unfold readResponse
  rw [arrived, hs]

/-- A response without a status is a failure. -/
theorem status_of_cause_readResponse {read : Nat → Http.Response → Http.Response}
    {r : Http.Response} (h : (readResponse read r).cause = none) :
    ∃ status, r.status = some status := by
  cases hc : r.cause with
  | some cause =>
    unfold readResponse at h
    rw [hc] at h
    simp only at h
    rw [hc] at h
    cases h
  | none =>
    cases hs : r.status with
    | some status => exact ⟨status, rfl⟩
    | none =>
      unfold readResponse at h
      rw [hc, hs] at h
      cases h

theorem outcome_eq_ok_iff {status : Nat} {r : Http.Response} {message : Bytes} :
    outcome c status r = .ok message ↔
      status = 200 ∧ Protocol.grpc.accepts c.encoding (mediaTypeOf r.headers) = true ∧
        r.trailers.SaysOk ∧
        ∃ flags, Protocol.grpc.Opens (poolOf c r.headers) r.body ⟨flags, message⟩ := by
  simp only [outcome, then_eq_ok_iff, checkHead_eq_ok_iff, checkCompletion_eq_ok_iff,
    Completion.failure?_parse_eq_none_iff, singleMessage_eq_ok_iff, and_assoc]
  refine and_congr_right fun _ => and_congr_right fun _ => and_congr_left ?_
  rintro ⟨flags, opens⟩
  -- a body that is one frame is not empty, so the headers are not asked for the status
  have body : (r.body != []) = true := by simp [opens.1.ne_nil]
  rw [body, Completion.source_of_body]

/-- The message of a call that has succeeded is the one that the response holds. -/
theorem unaryResponse_of_opens {r : Http.Response} (arrived : r.cause = none) {e : Envelope}
    (succeeds : Succeeds .grpc c r r.trailers)
    (opens : Protocol.grpc.Opens (poolOf c r.headers) r.body e) :
    unaryResponse c r = { r with body := e.payload } := by
  have read : unaryResponse c r = conclude r (outcome c 200 r) :=
    readResponse_of_status arrived succeeds.status
  rw [read, outcome_eq_ok_iff.mpr ⟨rfl, succeeds.type, succeeds.ok, e.flags, opens⟩]
  rfl

/-- A unary call of gRPC succeeds exactly if the response says so in its trailers and holds one
message. -/
theorem cause_unaryResponse_iff {r : Http.Response} (arrived : r.cause = none) :
    (unaryResponse c r).cause = none ↔
      Succeeds .grpc c r r.trailers ∧ ∃ e, Protocol.grpc.Opens (poolOf c r.headers) r.body e := by
  constructor
  · intro clean
    obtain ⟨status, hs⟩ := status_of_cause_readResponse clean
    have read : unaryResponse c r = conclude r (outcome c status r) :=
      readResponse_of_status arrived hs
    rw [read] at clean
    cases ho : outcome c status r with
    | error cause =>
      rw [ho] at clean
      cases clean
    | ok message =>
      obtain ⟨rfl, type, ok, flags, opens⟩ := outcome_eq_ok_iff.mp ho
      exact ⟨⟨hs, type, ok⟩, ⟨flags, message⟩, opens⟩
  · rintro ⟨succeeds, e, opens⟩
    rw [unaryResponse_of_opens arrived succeeds opens]
    exact arrived

/-! ## Unary calls of gRPC-Web -/

/-- A body of gRPC-Web is a frame with a message and a frame with trailers. -/
def WebBody.Holds (pool : Option Pool) (body message : Bytes) (trailers : Metadata) : Prop :=
  ∃ first last e f, first ++ last = body ∧
    Protocol.grpcWeb.Opens pool first e ∧ isTrailers e = false ∧ e.payload = message ∧
    Protocol.grpcWeb.Opens pool last f ∧ isTrailers f = true ∧
      TrailerText.parse f.payload = trailers

namespace WebBody

variable {pool : Option Pool} {body rest message : Bytes} {trailers : Metadata}

theorem close_eq_ok_iff {found : Option Bytes} {last : Envelope} {b : WebBody} :
    close found rest last = .ok b ↔ rest = [] ∧ b = ⟨found, TrailerText.parse last.payload⟩ := by
  unfold close
  by_cases empty : rest = []
  · simp [empty, eq_comm]
  · simp [empty]

/-- A body that is read has its message first and its trailers last. -/
theorem parse_eq_ok_iff (nonempty : body ≠ []) :
    parse pool body = .ok ⟨some message, trailers⟩ ↔ Holds pool body message trailers := by
  unfold parse
  rw [bind_eq_ok_iff]
  constructor
  · rintro ⟨⟨rest, e⟩, taken, h⟩
    obtain ⟨first, opened, rfl⟩ := (Protocol.takeFrame_eq_ok_iff_opens nonempty).mp taken
    simp only at h
    split at h
    · -- trailers in the first frame leave no message
      obtain ⟨-, h⟩ := close_eq_ok_iff.mp h
      cases h
    · next plain =>
      split at h
      · cases h
      · next more =>
        obtain ⟨⟨left, f⟩, taken, closed⟩ := bind_eq_ok_iff.mp h
        obtain ⟨last, closing, rfl⟩ := (Protocol.takeFrame_eq_ok_iff_opens more).mp taken
        simp only at closed
        split at closed
        · next ends =>
          obtain ⟨rfl, same⟩ := close_eq_ok_iff.mp closed
          cases same
          exact ⟨first, last, e, f, by rw [List.append_nil], opened, by simpa using plain, rfl,
            closing, ends, rfl⟩
        · cases closed
  · rintro ⟨first, last, e, f, rfl, opened, plain, rfl, closing, ends, rfl⟩
    have more : last ≠ [] := closing.1.ne_nil
    have taken := (Protocol.takeFrame_eq_ok_iff_opens nonempty).mpr ⟨first, opened, rfl⟩
    refine ⟨(last, e), taken, ?_⟩
    simp only [plain, Bool.false_eq_true, if_false, more, closing.2]
    rw [bind_eq_ok_iff]
    refine ⟨([], f), rfl, ?_⟩
    rw [if_pos ends]
    exact close_eq_ok_iff.mpr ⟨rfl, rfl⟩

theorem outcome_eq_ok_iff {b : WebBody} {headers : Metadata} :
    b.outcome headers = .ok message ↔ b.message = some message ∧ b.trailers.SaysOk := by
  unfold outcome
  rw [then_eq_ok_iff, checkCompletion_eq_ok_iff, Completion.failure?_parse_eq_none_iff]
  cases b.message with
  | none => simp
  | some found =>
    rw [Option.isSome_some, Completion.source_of_body]
    simp [and_comm]

end WebBody

/-- The message and the trailers of a call that has succeeded are those of the body. -/
theorem unaryWebResponse_of_holds {r : Http.Response} (arrived : r.cause = none) {message : Bytes}
    {trailers : Metadata} (succeeds : Succeeds .grpcWeb c r trailers)
    (holds : WebBody.Holds (poolOf c r.headers) r.body message trailers) :
    unaryWebResponse c r = { r with body := message, trailers } := by
  have read : unaryWebResponse c r = readWeb c 200 r :=
    readResponse_of_status arrived succeeds.status
  have head : checkHead .grpcWeb c.encoding 200 r.headers = .ok () :=
    checkHead_eq_ok_iff.mpr ⟨rfl, succeeds.type⟩
  have nonempty : r.body ≠ [] := by
    obtain ⟨first, last, _, _, joined, opened, _⟩ := holds
    rw [← joined]
    simp [opened.1.ne_nil]
  have outcome : WebBody.outcome ⟨some message, trailers⟩ r.headers = .ok message :=
    WebBody.outcome_eq_ok_iff.mpr ⟨rfl, succeeds.ok⟩
  rw [read, readWeb]
  simp only [head, if_neg nonempty, (WebBody.parse_eq_ok_iff nonempty).mpr holds, outcome]
  rfl

/-- A unary call of gRPC-Web succeeds exactly if the body holds one message and trailers that say
so. -/
theorem cause_unaryWebResponse_iff {r : Http.Response} (arrived : r.cause = none) :
    (unaryWebResponse c r).cause = none ↔
      ∃ message trailers, Succeeds .grpcWeb c r trailers ∧
        WebBody.Holds (poolOf c r.headers) r.body message trailers := by
  constructor
  · intro clean
    obtain ⟨status, hs⟩ := status_of_cause_readResponse clean
    have read : unaryWebResponse c r = readWeb c status r := readResponse_of_status arrived hs
    rw [read, readWeb] at clean
    cases hh : checkHead .grpcWeb c.encoding status r.headers with
    | error cause =>
      rw [hh] at clean
      cases clean
    | ok _ =>
      obtain ⟨rfl, type⟩ := checkHead_eq_ok_iff.mp hh
      rw [hh] at clean
      simp only at clean
      by_cases empty : r.body = []
      · -- a body without frames is a failure even if the status is zero
        rw [if_pos empty] at clean
        cases clean
      · rw [if_neg empty] at clean
        cases hp : WebBody.parse (poolOf c r.headers) r.body with
        | error cause =>
          rw [hp] at clean
          cases clean
        | ok parts =>
          rw [hp] at clean
          simp only at clean
          cases ho : parts.outcome r.headers with
          | error cause =>
            rw [ho] at clean
            cases clean
          | ok message =>
            obtain ⟨found, ok⟩ := WebBody.outcome_eq_ok_iff.mp ho
            obtain ⟨held, trailers⟩ := parts
            subst found
            exact ⟨message, trailers, ⟨hs, type, ok⟩, (WebBody.parse_eq_ok_iff empty).mp hp⟩
  · rintro ⟨message, trailers, succeeds, holds⟩
    rw [unaryWebResponse_of_holds arrived succeeds holds]
    exact arrived

end Grpc

/-! ## What a stream remembers -/

/-- What a hook remembers after some events. -/
def StreamHook.after (h : StreamHook σ) : σ → List (Event Bytes) → σ
  | s, [] => s
  | s, e :: es => h.after (h.event s e).2 es

namespace Grpc

variable {c : ClientConfig σ} {p : Protocol} {s : StreamState} {e : Event Bytes}

/-- What a stream remembers that has shown some events. -/
def StreamState.ofSeen (c : ClientConfig σ) (seen : List (Event Bytes)) : StreamState where
  pool := (Event.allHeaders seen).getLast?.bind (poolOf c)
  headers := (Event.allHeaders seen).getLast?.getD .empty
  seenMessage := !(Event.messages seen).isEmpty

namespace StreamState

theorem ofSeen_headers (seen : List (Event Bytes)) (headers : Metadata) :
    ofSeen c (seen ++ [.headers headers]) =
      { ofSeen c seen with pool := poolOf c headers, headers } := by
  simp [ofSeen, Event.allHeaders, Event.messages]

theorem ofSeen_message (seen : List (Event Bytes)) (payload : Bytes) :
    ofSeen c (seen ++ [.message payload]) = { ofSeen c seen with seenMessage := true } := by
  simp [ofSeen, Event.allHeaders, Event.messages]

theorem ofSeen_complete (seen : List (Event Bytes)) (cause : Option Failure)
    (trailers : Metadata) : ofSeen c (seen ++ [.complete cause trailers]) = ofSeen c seen := by
  simp [ofSeen, Event.allHeaders, Event.messages]

end StreamState

open StreamState (ofSeen ofSeen_headers ofSeen_message ofSeen_complete)

/-- What is remembered after an event is computed from what the event has been shown as. -/
theorem streamEvent_ofSeen (seen : List (Event Bytes)) (e : Event Bytes) :
    (streamEvent p c (ofSeen c seen) e).2 =
      ofSeen c (seen ++ [(streamEvent p c (ofSeen c seen) e).1]) := by
  cases e with
  | headers headers =>
    simp only [streamEvent, streamHeaders]
    cases p.checkType c.encoding headers with
    | error cause => exact (ofSeen_complete seen _ _).symm
    | ok _ => exact (ofSeen_headers seen headers).symm
  | message buffer =>
    simp only [streamEvent]
    cases p.takeFrame buffer (ofSeen c seen).pool with
    | error cause => exact (ofSeen_complete seen _ _).symm
    | ok taken =>
      -- a frame of trailers counts as a completion, not as a message
      by_cases last : p = .grpcWeb ∧ isTrailers taken.2 = true
      · simp only [if_pos last]
        exact (ofSeen_complete seen _ _).symm
      · simp only [if_neg last]
        exact (ofSeen_message seen _).symm
  | complete cause trailers =>
    cases cause with
    | some cause => exact (ofSeen_complete seen _ _).symm
    | none => exact (ofSeen_complete seen _ _).symm

theorem protocolEvent_eq (family : c.family ≠ .connect) (m : StreamMemory) (e : Event Bytes) :
    protocolEvent c m e = streamEvent (c.family.protocol true) c m e := by
  unfold protocolEvent
  cases hf : c.family with
  | connect => exact absurd hf family
  | grpc => rfl
  | grpcWeb => rfl

/-- What a stream remembers is determined by the events that it has produced. -/
theorem after_ofSeen (family : c.family ≠ .connect) (seen events : List (Event Bytes)) :
    (protocolStream c).after (ofSeen c seen) events =
      ofSeen c (seen ++ (protocolStream c).produce (ofSeen c seen) events) := by
  induction events generalizing seen with
  | nil =>
    rw [StreamHook.produce, List.append_nil]
    rfl
  | cons e events ih =>
    have step : ((protocolStream c).event (ofSeen c seen) e).2 =
        ofSeen c (seen ++ [((protocolStream c).event (ofSeen c seen) e).1]) := by
      show (protocolEvent c _ e).2 = ofSeen c (seen ++ [(protocolEvent c _ e).1])
      rw [protocolEvent_eq family]
      exact streamEvent_ofSeen seen e
    rw [StreamHook.after, StreamHook.produce, step, ih, List.append_assoc]
    rfl

/-- What a stream of gRPC or gRPC-Web remembers is computed from what it has shown. -/
theorem after_fresh (family : c.family ≠ .connect) (events : List (Event Bytes)) :
    (protocolStream c).after .fresh events =
      ofSeen c ((protocolStream c).produce .fresh events) :=
  after_ofSeen family [] events

/-- The headers with an accepted media type among some events. -/
def accepted (p : Protocol) (c : ClientConfig σ) (events : List (Event Bytes)) : List Metadata :=
  (Event.allHeaders events).filter fun headers => p.accepts c.encoding (mediaTypeOf headers)

theorem allHeaders_streamEvent (s : StreamState) (e : Event Bytes) :
    Event.allHeaders [(streamEvent p c s e).1] = accepted p c [e] := by
  cases e with
  | headers headers =>
    simp only [streamEvent, streamHeaders]
    cases checked : p.checkType c.encoding headers with
    | error cause =>
      have refused : p.accepts c.encoding (mediaTypeOf headers) = false := by
        rw [← Bool.not_eq_true, ← Protocol.checkType_eq_ok_iff, checked]
        intro ok
        cases ok
      simp [accepted, Event.allHeaders, Event.fail, refused]
    | ok _ => simp [accepted, Event.allHeaders, Protocol.checkType_eq_ok_iff.mp checked]
  | message buffer =>
    simp only [streamEvent]
    split
    · rfl
    · split <;> rfl
  | complete cause trailers => cases cause <;> rfl

/-- Of the headers that a stream is given it shows those that it accepts. -/
theorem allHeaders_produce (family : c.family ≠ .connect) (m : StreamMemory)
    (events : List (Event Bytes)) :
    Event.allHeaders ((protocolStream c).produce m events) =
      accepted (c.family.protocol true) c events := by
  induction events generalizing m with
  | nil => rfl
  | cons e events ih =>
    have first : Event.allHeaders [((protocolStream c).event m e).1] =
        accepted (c.family.protocol true) c [e] := by
      show Event.allHeaders [(protocolEvent c m e).1] = _
      rw [protocolEvent_eq family]
      exact allHeaders_streamEvent m e
    have later := ih ((protocolStream c).event m e).2
    rw [StreamHook.produce, ← List.singleton_append, ← List.singleton_append (l := events)]
    unfold accepted Event.allHeaders at *
    rw [List.filterMap_append, List.filterMap_append, List.filter_append, first, later]

/-! ## The end of a stream -/

/-- An event that ends a stream, with the trailers it ends with: the end of the body, and for
gRPC-Web also a frame of trailers. -/
inductive Ends (p : Protocol) (pool : Option Pool) : Event Bytes → Metadata → Prop
  | body (trailers : Metadata) : Ends p pool (.complete none trailers) trailers
  | frame {buffer rest : Bytes} {e : Envelope} (web : p = .grpcWeb)
      (taken : p.takeFrame buffer pool = .ok (rest, e)) (last : isTrailers e = true) :
      Ends p pool (.message buffer) (TrailerText.parse e.payload)

/-- The event that brings the trailers is turned into the end that their status says. -/
theorem event_of_ends {trailers : Metadata} (h : Ends p s.pool e trailers) :
    (streamEvent p c s e).1 = completeFrom s trailers := by
  cases h with
  | body => rfl
  | frame web taken last => simp only [streamEvent, taken, if_pos (And.intro web last)]

/-- The end is clean exactly if the status, where it is looked for, says so. -/
theorem clean_completeFrom_iff {trailers : Metadata} :
    (∃ given, completeFrom s trailers = .complete none given) ↔
      (Completion.source s.headers s.seenMessage trailers).SaysOk := by
  rw [← Completion.failure?_parse_eq_none_iff]
  constructor
  · rintro ⟨given, h⟩
    exact (Event.complete.inj h).1
  · intro ok
    exact ⟨_, congrArg (Event.complete · _) ok⟩

/-- A completion without a cause is made exactly of an event that ends the stream where the status
is zero. -/
theorem clean_streamEvent_iff :
    (∃ given, (streamEvent p c s e).1 = .complete none given) ↔
      ∃ trailers, Ends p s.pool e trailers ∧
        (Completion.source s.headers s.seenMessage trailers).SaysOk := by
  constructor
  · rintro ⟨given, made⟩
    cases e with
    | headers headers =>
      simp only [streamEvent, streamHeaders] at made
      split at made <;> cases made
    | message buffer =>
      simp only [streamEvent] at made
      split at made
      · cases made
      · next rest e taken =>
        split at made
        · next last =>
          exact ⟨_, .frame last.1 taken last.2, clean_completeFrom_iff.mp ⟨given, made⟩⟩
        · cases made
    | complete cause trailers =>
      cases cause with
      | some cause => cases made
      | none => exact ⟨trailers, .body trailers, clean_completeFrom_iff.mp ⟨given, made⟩⟩
  · rintro ⟨trailers, ends, ok⟩
    obtain ⟨given, made⟩ := clean_completeFrom_iff.mpr ok
    exact ⟨given, (event_of_ends ends).trans made⟩

end Grpc

/-! ## Unary calls and streams -/

open Grpc (Ends Succeeds WebBody poolOf)

/-- A client of gRPC or gRPC-Web takes a call for a success exactly if it was told so: a unary call
by the trailers of a response with one message, a stream by the trailers it ends with, or by the
last headers it accepted if there are no trailers and no message has come. -/
theorem success_iff_saysOk (c : ClientConfig σ) :
    (∀ {τ : Type} (m : τ) (r : Http.Response), r.cause = none →
      let read := ((protocolUnary c).response m r).1
      let pool := poolOf c r.headers
      (c.family = .grpc →
        (read.cause = none ↔ Succeeds .grpc c r r.trailers ∧
          ∃ e, Protocol.grpc.Opens pool r.body e) ∧
        ∀ e, Succeeds .grpc c r r.trailers → Protocol.grpc.Opens pool r.body e →
          read.body = e.payload) ∧
      (c.family = .grpcWeb →
        (read.cause = none ↔ ∃ message trailers, Succeeds .grpcWeb c r trailers ∧
          WebBody.Holds pool r.body message trailers) ∧
        ∀ message trailers, Succeeds .grpcWeb c r trailers →
          WebBody.Holds pool r.body message trailers →
            read.body = message ∧ read.trailers = trailers)) ∧
    (c.family ≠ .connect → ∀ (earlier : List (Event Bytes)) (e : Event Bytes),
      let p := c.family.protocol true
      let headers := (Grpc.accepted p c earlier).getLast?
      let memory := (protocolStream c).after .fresh earlier
      let seen := Event.messages ((protocolStream c).produce .fresh earlier)
      (∃ given, ((protocolStream c).event memory e).1 = .complete none given) ↔
        ∃ trailers, Ends p (headers.bind (poolOf c)) e trailers ∧
          (Completion.source (headers.getD .empty) (!seen.isEmpty) trailers).SaysOk) := by
  refine ⟨?_, ?_⟩
  · intro τ m r arrived
    refine ⟨?_, ?_⟩
    · intro family
      simp only [protocolUnary, family]
      refine ⟨Grpc.cause_unaryResponse_iff arrived, ?_⟩
      intro e succeeds opens
      exact congrArg Http.Response.body (Grpc.unaryResponse_of_opens arrived succeeds opens)
    · intro family
      simp only [protocolUnary, family]
      refine ⟨Grpc.cause_unaryWebResponse_iff arrived, ?_⟩
      intro message trailers succeeds holds
      have read := Grpc.unaryWebResponse_of_holds arrived succeeds holds
      exact ⟨congrArg Http.Response.body read, congrArg Http.Response.trailers read⟩
  · intro family earlier e
    simp only [← Grpc.allHeaders_produce family .fresh earlier, Grpc.after_fresh family]
    show (∃ given, (protocolEvent c _ e).1 = .complete none given) ↔ _
    rw [Grpc.protocolEvent_eq family]
    exact Grpc.clean_streamEvent_iff

def clientOf (family : Family) : ClientConfig Unit := { ClientConfig.new "http://h" with family }

def headersOf (family : Family) : Metadata :=
  .ofTexts [("content-type", (family.protocol true).contentType "proto")]

def sealedMessage : Bytes := Envelope.frame 0 [7]

/-- A frame of trailers with the status zero. -/
def okTrailers : Bytes := Envelope.frame Envelope.trailersFlag (Utf8.encode "grpc-status: 0\r\n")

theorem success_iff_saysOk_message :
    Succeeds .grpc (clientOf .grpc)
        (.arrived 200 (headersOf .grpc) sealedMessage (.ofTexts [("grpc-status", " 0")]))
        (.ofTexts [("grpc-status", " 0")]) ∧
      (∃ message trailers, WebBody.Holds none (sealedMessage ++ okTrailers) message trailers ∧
        trailers.SaysOk ∧ message = [7]) ∧
      ∃ trailers, Ends .grpcWeb none (.message okTrailers) trailers ∧
        (Completion.source (headersOf .grpcWeb) true trailers).SaysOk := by
  refine ⟨?_, ?_, ?_⟩
  · have told := (success_iff_saysOk (clientOf .grpc)).1 ()
      (.arrived 200 (headersOf .grpc) sealedMessage (.ofTexts [("grpc-status", " 0")])) rfl
    exact ((told.1 rfl).1.mp (by decide +kernel)).1
  · have told := (success_iff_saysOk (clientOf .grpcWeb)).1 ()
      (.arrived 200 (headersOf .grpcWeb) (sealedMessage ++ okTrailers) .empty) rfl
    obtain ⟨message, trailers, succeeds, holds⟩ := (told.2 rfl).1.mp (by decide +kernel)
    have body : ((protocolUnary (clientOf .grpcWeb)).response ()
        (.arrived 200 (headersOf .grpcWeb) (sealedMessage ++ okTrailers) .empty)).1.body = [7] := by
      decide +kernel
    have pool : poolOf (clientOf .grpcWeb) (headersOf .grpcWeb) = none := by rfl
    have read := ((told.2 rfl).2 message trailers succeeds holds).1
    exact ⟨message, trailers, pool ▸ holds, succeeds.ok, read.symm.trans body⟩
  · have told := (success_iff_saysOk (clientOf .grpcWeb)).2 (by decide)
      [.headers (headersOf .grpcWeb), .message sealedMessage] (.message okTrailers)
    have shown : (protocolStream (clientOf .grpcWeb)).produce .fresh
        [.headers (headersOf .grpcWeb), .message sealedMessage] =
          [.headers (headersOf .grpcWeb), .message [7]] := by decide +kernel
    have headers : Grpc.accepted .grpcWeb (clientOf .grpcWeb)
        [.headers (headersOf .grpcWeb), .message sealedMessage] = [headersOf .grpcWeb] := by
      decide +kernel
    have pool : poolOf (clientOf .grpcWeb) (headersOf .grpcWeb) = none := by rfl
    obtain ⟨trailers, ends, ok⟩ := told.mp ⟨.ofTexts [("grpc-status", "0")], by decide +kernel⟩
    rw [shown] at ok
    rw [show (clientOf .grpcWeb).family.protocol true = .grpcWeb from rfl, headers] at ends ok
    exact ⟨trailers, pool ▸ ends, ok⟩

end RpcWire
