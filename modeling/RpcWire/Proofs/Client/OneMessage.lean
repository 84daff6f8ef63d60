import RpcWire.Proofs.Client.Success
import RpcWire.Proofs.Coding.Negotiate
import RpcWire.Proofs.Frame.Content

/-!
# One message and nothing else

The body of a unary call of gRPC has to be one frame, and that of gRPC-Web two,
the second with the trailers. Every other body is misframed in one of a few
ways, and each way has its code.

* `Grpc.Misframed`, `Grpc.carries_or_misframed`: bodies of gRPC;
* `Grpc.WebBody.Reads`, `Grpc.WebBody.Misframed`,
  `Grpc.WebBody.reads_or_misframed`: bodies of gRPC-Web;
* `one_message`: what the response of a call becomes.
-/

namespace RpcWire

open Envelope (Carries IsWhole Unreadable flagsOf)

variable {σ : Type} {pool : Option Pool} {body f rest message : Bytes}

namespace Protocol

theorem opens_iff {p : Protocol} {e : Envelope} :
    p.Opens pool f e ↔ Carries pool f e.payload ∧ e.flags = flagsOf f := by
  constructor
  · rintro ⟨whole, taken⟩
    obtain ⟨g, carries, flags, joined⟩ := (takeFrame_eq_ok_iff_carries whole.ne_nil).mp taken
    rw [List.append_nil] at joined
    exact joined ▸ ⟨carries, flags⟩
  · rintro ⟨carries, flags⟩
    refine ⟨carries.whole, ?_⟩
    exact (takeFrame_eq_ok_iff_carries carries.whole.ne_nil).mpr
      ⟨f, carries, flags, List.append_nil f⟩

end Protocol

namespace Grpc

/-! ## Bodies of gRPC -/

/-- The ways in which a body is not one frame with a message, each with its code. -/
inductive Misframed (pool : Option Pool) : Bytes → Code → Prop
  | empty : Misframed pool [] .unimplemented
  /-- Something follows a message. -/
  | surplus {f message rest : Bytes} (first : Carries pool f message) (more : rest ≠ []) :
      Misframed pool (f ++ rest) .unimplemented
  | unreadable {body : Bytes} (nonempty : body ≠ []) (h : Unreadable pool body) :
      Misframed pool body .internal

theorem singleMessage_of_carries (h : Carries pool body message) :
    singleMessage pool body = .ok message := by
  have opens := Protocol.opens_iff (p := .grpc) (e := ⟨flagsOf body, message⟩).mpr ⟨h, rfl⟩
  exact singleMessage_eq_ok_iff.mpr ⟨_, opens⟩

theorem singleMessage_of_misframed {code : Code} (h : Misframed pool body code) :
    ∃ cause, singleMessage pool body = .error cause ∧ cause.code = code := by
  cases h with
  | empty => exact ⟨_, rfl, rfl⟩
  | @surplus f message rest first more =>
    have nonempty : f ++ rest ≠ [] := by simp [first.whole.ne_nil]
    unfold singleMessage
    rw [if_neg nonempty, Protocol.takeFrame_of_carries _ first]
    refine ⟨multipleMessages, ?_, rfl⟩
    exact if_neg more
  | unreadable nonempty h =>
    obtain ⟨cause, refused, code⟩ := Protocol.takeFrame_of_unreadable .grpc nonempty h
    unfold singleMessage
    rw [if_neg nonempty, refused]
    exact ⟨cause, rfl, code⟩

/-- A body is one frame with a message or is misframed. -/
theorem carries_or_misframed (pool : Option Pool) (body : Bytes) :
    (∃ message, Carries pool body message) ∨ ∃ code, Misframed pool body code := by
  by_cases nonempty : body = []
  · rw [nonempty]
    exact .inr ⟨_, .empty⟩
  rcases Envelope.unreadable_or_carries pool body with unreadable | ⟨f, message, rest, carries, rfl⟩
  · exact .inr ⟨_, .unreadable nonempty unreadable⟩
  by_cases more : rest = []
  · rw [more, List.append_nil]
    exact .inl ⟨message, carries⟩
  · exact .inr ⟨_, .surplus carries more⟩

/-- A body yields one message exactly if it is one whole frame that carries it. -/
theorem singleMessage_eq_ok_iff_carries :
    singleMessage pool body = .ok message ↔ Carries pool body message := by
  refine ⟨?_, singleMessage_of_carries⟩
  intro read
  obtain ⟨flags, opens⟩ := singleMessage_eq_ok_iff.mp read
  exact (Protocol.opens_iff.mp opens).1

/-- How a body is misframed decides the code of its rejection. -/
theorem singleMessage_eq_error_iff {code : Code} :
    (∃ cause, singleMessage pool body = .error cause ∧ cause.code = code) ↔
      Misframed pool body code := by
  refine ⟨?_, singleMessage_of_misframed⟩
  rintro ⟨cause, failed, rfl⟩
  rcases carries_or_misframed pool body with ⟨message, carries⟩ | ⟨code, misframed⟩
  · rw [singleMessage_of_carries carries] at failed
    cases failed
  · obtain ⟨other, same, rfl⟩ := singleMessage_of_misframed misframed
    rw [failed] at same
    cases same
    exact misframed

/-! ## Bodies of gRPC-Web -/

/-- A frame is marked as the one with the trailers. -/
def IsLast (f : Bytes) : Prop := flagsOf f &&& Envelope.trailersFlag = Envelope.trailersFlag

instance (f : Bytes) : Decidable (IsLast f) := inferInstanceAs (Decidable (_ = _))

theorem isTrailers_iff {f message : Bytes} : isTrailers ⟨flagsOf f, message⟩ = true ↔ IsLast f :=
  beq_iff_eq

namespace WebBody

/-- A body is a frame with trailers, after a frame with a message if there is one. -/
inductive Reads (pool : Option Pool) : Bytes → WebBody → Prop
  | trailers {last text : Bytes} (closes : Carries pool last text) (ends : IsLast last) :
      Reads pool last ⟨none, TrailerText.parse text⟩
  | message {first last message text : Bytes} (opens : Carries pool first message)
      (plain : ¬ IsLast first) (closes : Carries pool last text) (ends : IsLast last) :
      Reads pool (first ++ last) ⟨some message, TrailerText.parse text⟩

/-- The ways in which a body that is not empty has not got this form, each with its code. -/
inductive Misframed (pool : Option Pool) : Bytes → Code → Prop
  | unreadable {body : Bytes} (nonempty : body ≠ []) (h : Unreadable pool body) :
      Misframed pool body .internal
  /-- The body ends after a message. -/
  | unended {first message : Bytes} (opens : Carries pool first message)
      (plain : ¬ IsLast first) : Misframed pool first .internal
  | unreadableRest {first rest message : Bytes} (opens : Carries pool first message)
      (plain : ¬ IsLast first) (more : rest ≠ []) (h : Unreadable pool rest) :
      Misframed pool (first ++ rest) .internal
  /-- A second message follows the first. -/
  | second {first next rest message other : Bytes} (opens : Carries pool first message)
      (plain : ¬ IsLast first) (follows : Carries pool next other) (plain_too : ¬ IsLast next) :
      Misframed pool (first ++ (next ++ rest)) .unimplemented
  /-- Something follows the trailers. -/
  | surplus {body rest : Bytes} {b : WebBody} (h : Reads pool body b) (more : rest ≠ []) :
      Misframed pool (body ++ rest) .internal

theorem Reads.ne_nil {b : WebBody} (h : Reads pool body b) : body ≠ [] := by
  cases h with
  | trailers closes ends => exact closes.whole.ne_nil
  | message opens plain closes ends => simp [opens.whole.ne_nil]

theorem Misframed.ne_nil {code : Code} (h : Misframed pool body code) : body ≠ [] := by
  cases h with
  | unreadable nonempty h => exact nonempty
  | unended opens plain => exact opens.whole.ne_nil
  | unreadableRest opens plain more h => simp [opens.whole.ne_nil]
  | second opens plain follows plain_too => simp [opens.whole.ne_nil]
  | surplus h more => simp [h.ne_nil]

/-- The first frame of a body decides how the body is read. -/
theorem parse_of_carries (h : Carries pool f message) (rest : Bytes) :
    parse pool (f ++ rest) =
      if IsLast f then close none rest ⟨flagsOf f, message⟩
      else if rest = [] then .error (.new .internal "protocol error: missing end-of-stream message")
      else Protocol.grpcWeb.takeFrame rest pool >>= fun (rest, second) =>
        if isTrailers second then close (some message) rest second
        else .error multipleMessages := by
  unfold parse
  rw [Protocol.takeFrame_of_carries _ h]
  show ite _ _ _ = _
  simp only [isTrailers_iff]

/-- What follows a body that is well framed is too much. -/
theorem parse_of_reads {b : WebBody} (h : Reads pool body b) (rest : Bytes) :
    parse pool (body ++ rest) =
      if rest = [] then .ok b
      else .error (.new .internal "protocol error: data after end-of-stream") := by
  cases h with
  | trailers closes ends =>
    rw [parse_of_carries closes, if_pos ends]
    rfl
  | @message first last message text opens plain closes ends =>
    have more : last ++ rest ≠ [] := by simp [closes.whole.ne_nil]
    rw [List.append_assoc, parse_of_carries opens, if_neg plain, if_neg more,
      Protocol.takeFrame_of_carries _ closes]
    show ite _ _ _ = _
    rw [if_pos (isTrailers_iff.mpr ends)]
    rfl

theorem parse_of_misframed {code : Code} (h : Misframed pool body code) :
    ∃ cause, parse pool body = .error cause ∧ cause.code = code := by
  cases h with
  | unreadable nonempty h =>
    obtain ⟨cause, refused, code⟩ := Protocol.takeFrame_of_unreadable .grpcWeb nonempty h
    unfold parse
    rw [refused]
    exact ⟨cause, rfl, code⟩
  | unended opens plain =>
    have read := parse_of_carries opens []
    rw [List.append_nil, if_neg plain, if_pos rfl] at read
    exact ⟨_, read, rfl⟩
  | unreadableRest opens plain more h =>
    obtain ⟨cause, refused, code⟩ := Protocol.takeFrame_of_unreadable .grpcWeb more h
    rw [parse_of_carries opens, if_neg plain, if_neg more, refused]
    exact ⟨cause, rfl, code⟩
  | @second first next rest message other opens plain follows plain_too =>
    have more : next ++ rest ≠ [] := by simp [follows.whole.ne_nil]
    rw [parse_of_carries opens, if_neg plain, if_neg more, Protocol.takeFrame_of_carries _ follows]
    refine ⟨multipleMessages, ?_, rfl⟩
    exact if_neg (mt isTrailers_iff.mp plain_too)
  | surplus h more =>
    rw [parse_of_reads h, if_neg more]
    exact ⟨_, rfl, rfl⟩

/-- Every body that is not empty is well framed or misframed. -/
theorem reads_or_misframed (pool : Option Pool) (nonempty : body ≠ []) :
    (∃ b, Reads pool body b) ∨ ∃ code, Misframed pool body code := by
  rcases Envelope.unreadable_or_carries pool body with unreadable | ⟨f, message, rest, opens, rfl⟩
  · exact .inr ⟨_, .unreadable nonempty unreadable⟩
  by_cases ends : IsLast f
  · by_cases more : rest = []
    · rw [more, List.append_nil]
      exact .inl ⟨_, .trailers opens ends⟩
    · exact .inr ⟨_, .surplus (.trailers opens ends) more⟩
  by_cases more : rest = []
  · rw [more, List.append_nil]
    exact .inr ⟨_, .unended opens ends⟩
  rcases Envelope.unreadable_or_carries pool rest with unreadable | ⟨g, text, left, closes, rfl⟩
  · exact .inr ⟨_, .unreadableRest opens ends more unreadable⟩
  by_cases last : IsLast g
  · have reads : Reads pool (f ++ g) ⟨some message, TrailerText.parse text⟩ :=
      .message opens ends closes last
    by_cases surplus : left = []
    · rw [surplus, List.append_nil]
      exact .inl ⟨_, reads⟩
    · rw [← List.append_assoc]
      exact .inr ⟨_, .surplus reads surplus⟩
  · exact .inr ⟨_, .second opens ends closes last⟩

/-- A gRPC-Web body is read exactly if it is an optional message and then its trailers. -/
theorem parse_eq_ok_iff_reads (nonempty : body ≠ []) {b : WebBody} :
    parse pool body = .ok b ↔ Reads pool body b := by
  constructor
  · intro read
    rcases reads_or_misframed pool nonempty with ⟨other, reads⟩ | ⟨code, misframed⟩
    · have same := parse_of_reads reads []
      rw [List.append_nil, if_pos rfl, read] at same
      cases same
      exact reads
    · obtain ⟨cause, failed, -⟩ := parse_of_misframed misframed
      rw [read] at failed
      cases failed
  · intro reads
    have read := parse_of_reads reads []
    rwa [List.append_nil, if_pos rfl] at read

end WebBody

/-! ## Responses -/

variable {c : ClientConfig σ} {r : Http.Response}

/-- A response that was accepted so far: its HTTP status and its media type are right. -/
structure IsAccepted (p : Protocol) (c : ClientConfig σ) (r : Http.Response) : Prop where
  arrived : r.cause = none
  status : r.status = some 200
  type : p.accepts c.encoding (mediaTypeOf r.headers) = true

theorem cause_conclude_iff (arrived : r.cause = none) {o : Except Failure Bytes} :
    (conclude r o).cause = none ↔ ∃ message, o = .ok message := by
  cases o with
  | error cause => simp [conclude, Http.Response.withFailure]
  | ok message => simp [conclude, arrived]

theorem conclude_eq_withFailure_iff (arrived : r.cause = none) {o : Except Failure Bytes}
    {cause : Failure} : conclude r o = r.withFailure cause ↔ o = .error cause := by
  cases o with
  | error own => simp [conclude, Http.Response.withFailure]
  | ok message => simp [conclude, Http.Response.withFailure, arrived]

/-- A response with a failure has no body. -/
theorem body_conclude (arrived : r.cause = none) {o : Except Failure Bytes}
    (failed : (conclude r o).cause ≠ none) : (conclude r o).body = [] := by
  cases o with
  | error cause => rfl
  | ok message => exact absurd arrived failed

/-- An accepted response is read in two steps, the status first and the body second. -/
theorem unaryResponse_eq (h : IsAccepted .grpc c r) :
    unaryResponse c r = conclude r (
      checkCompletion (.parse r.headers (r.body != []) r.trailers) >>= fun _ =>
        singleMessage (poolOf c r.headers) r.body) := by
  have head : checkHead .grpc c.encoding 200 r.headers = .ok () :=
    checkHead_eq_ok_iff.mpr ⟨rfl, h.type⟩
  have read : unaryResponse c r = conclude r (outcome c 200 r) :=
    readResponse_of_status h.arrived h.status
  rw [read, outcome, head]
  rfl

theorem unaryResponse_of_status (h : IsAccepted .grpc c r) {cause : Failure}
    (failed : (Completion.parse r.headers (r.body != []) r.trailers).failure? = some cause) :
    unaryResponse c r = r.withFailure cause := by
  rw [unaryResponse_eq h, checkCompletion, failed]
  rfl

theorem unaryResponse_of_isOk (h : IsAccepted .grpc c r)
    (ok : (Completion.parse r.headers (r.body != []) r.trailers).isOk = true) :
    unaryResponse c r = conclude r (singleMessage (poolOf c r.headers) r.body) := by
  rw [unaryResponse_eq h, checkCompletion, (Completion.failure?_eq_none_iff _).mpr ok]
  rfl

/-- A call of gRPC whose status is a success holds one message or fails for its framing. -/
theorem cause_unaryResponse_of_isOk (h : IsAccepted .grpc c r)
    (ok : (Completion.parse r.headers (r.body != []) r.trailers).isOk = true) :
    (unaryResponse c r).cause = none ↔
      ∃ message, Carries (poolOf c r.headers) r.body message := by
  rw [unaryResponse_of_isOk h ok, cause_conclude_iff h.arrived]
  simp only [singleMessage_eq_ok_iff_carries]

/-- Over gRPC-Web an empty body leaves the status to the headers; else the trailers are in the body.
-/
theorem unaryWebResponse_eq (h : IsAccepted .grpcWeb c r) :
    unaryWebResponse c r =
      if r.body = [] then
        r.withFailure ((Completion.parse r.headers false r.trailers).failure?.getD noMessages)
      else match WebBody.parse (poolOf c r.headers) r.body with
        | .error cause => r.withFailure cause
        | .ok parts =>
          conclude { r with trailers := parts.trailers } (parts.outcome r.headers) := by
  have head : checkHead .grpcWeb c.encoding 200 r.headers = .ok () :=
    checkHead_eq_ok_iff.mpr ⟨rfl, h.type⟩
  have read : unaryWebResponse c r = readWeb c 200 r :=
    readResponse_of_status h.arrived h.status
  rw [read]
  unfold readWeb
  split
  · next cause failed =>
    rw [head] at failed
    cases failed
  · rfl

theorem unaryWebResponse_of_empty (h : IsAccepted .grpcWeb c r) (empty : r.body = []) :
    unaryWebResponse c r =
      r.withFailure ((Completion.parse r.headers false r.trailers).failure?.getD noMessages) := by
  rw [unaryWebResponse_eq h, if_pos empty]

theorem unaryWebResponse_of_misframed (h : IsAccepted .grpcWeb c r) {code : Code}
    (misframed : WebBody.Misframed (poolOf c r.headers) r.body code) :
    ∃ cause, unaryWebResponse c r = r.withFailure cause ∧ cause.code = code := by
  obtain ⟨cause, failed, code⟩ := WebBody.parse_of_misframed misframed
  refine ⟨cause, ?_, code⟩
  rw [unaryWebResponse_eq h, if_neg misframed.ne_nil, failed]

theorem unaryWebResponse_of_reads (h : IsAccepted .grpcWeb c r) {b : WebBody}
    (reads : WebBody.Reads (poolOf c r.headers) r.body b) :
    unaryWebResponse c r = conclude { r with trailers := b.trailers } (b.outcome r.headers) := by
  rw [unaryWebResponse_eq h, if_neg reads.ne_nil,
    (WebBody.parse_eq_ok_iff_reads reads.ne_nil).mpr reads]

theorem WebBody.outcome_of_message {message : Bytes} {trailers headers : Metadata} :
    outcome ⟨some message, trailers⟩ headers =
      match (Completion.parse headers true trailers).failure? with
      | some cause => .error cause
      | none => .ok message := by
  unfold outcome checkCompletion
  show (match (Completion.parse headers true trailers).failure? with
    | some cause => Except.error cause
    | none => .ok ()) >>= _ = _
  cases (Completion.parse headers true trailers).failure? <;> rfl

theorem WebBody.outcome_of_trailers {trailers headers : Metadata} :
    outcome ⟨none, trailers⟩ headers =
      .error ((Completion.parse headers false trailers).failure?.getD noMessages) := by
  unfold outcome checkCompletion
  show (match (Completion.parse headers false trailers).failure? with
    | some cause => Except.error cause
    | none => .ok ()) >>= _ = _
  cases (Completion.parse headers false trailers).failure? <;> rfl

section Web

variable {message : Bytes} {trailers : Metadata}

theorem unaryWebResponse_of_trailers (h : IsAccepted .grpcWeb c r)
    (reads : WebBody.Reads (poolOf c r.headers) r.body ⟨none, trailers⟩) :
    unaryWebResponse c r = { r with trailers }.withFailure
      ((Completion.parse r.headers false trailers).failure?.getD noMessages) := by
  rw [unaryWebResponse_of_reads h reads, WebBody.outcome_of_trailers]
  rfl

theorem unaryWebResponse_of_isOk (h : IsAccepted .grpcWeb c r)
    (reads : WebBody.Reads (poolOf c r.headers) r.body ⟨some message, trailers⟩)
    (ok : (Completion.parse r.headers true trailers).isOk = true) :
    unaryWebResponse c r = { r with body := message, trailers } := by
  rw [unaryWebResponse_of_reads h reads, WebBody.outcome_of_message,
    (Completion.failure?_eq_none_iff _).mpr ok]
  rfl

theorem unaryWebResponse_of_status (h : IsAccepted .grpcWeb c r)
    (reads : WebBody.Reads (poolOf c r.headers) r.body ⟨some message, trailers⟩) {cause : Failure}
    (failed : (Completion.parse r.headers true trailers).failure? = some cause) :
    unaryWebResponse c r = { r with trailers }.withFailure cause := by
  rw [unaryWebResponse_of_reads h reads, WebBody.outcome_of_message, failed]
  rfl

end Web

/-! ## What a call comes to -/

/-- What the response of a unary call of gRPC becomes. -/
structure OneMessage (c : ClientConfig σ) (r : Http.Response) (ended : Completion) : Prop where
  /-- The call succeeds exactly if its status does and its body is one frame with a message. -/
  success : (unaryResponse c r).cause = none ↔
    ended.isOk = true ∧ ∃ message, Carries (poolOf c r.headers) r.body message
  message : ended.isOk = true → ∀ message, Carries (poolOf c r.headers) r.body message →
    unaryResponse c r = { r with body := message }
  /-- Otherwise there is a failure and no body. -/
  failure : (unaryResponse c r).cause ≠ none → (unaryResponse c r).body = []
  status : ∀ cause, ended.failure? = some cause → unaryResponse c r = r.withFailure cause
  framing : ended.isOk = true → ∀ code, Misframed (poolOf c r.headers) r.body code ↔
    ∃ cause, unaryResponse c r = r.withFailure cause ∧ cause.code = code

theorem IsAccepted.oneMessage (h : IsAccepted .grpc c r) :
    OneMessage c r (.parse r.headers (r.body != []) r.trailers) where
  success := by
    constructor
    · intro clean
      have ok : (Completion.parse r.headers (r.body != []) r.trailers).isOk = true := by
        rw [← Completion.failure?_eq_none_iff]
        refine Option.eq_none_iff_forall_ne_some.mpr ?_
        intro cause failed
        rw [unaryResponse_of_status h failed] at clean
        cases clean
      exact ⟨ok, (cause_unaryResponse_of_isOk h ok).mp clean⟩
    · rintro ⟨ok, carries⟩
      exact (cause_unaryResponse_of_isOk h ok).mpr carries
  message := by
    intro ok message carries
    rw [unaryResponse_of_isOk h ok, singleMessage_of_carries carries]
    rfl
  failure := by
    rw [unaryResponse_eq h]
    exact body_conclude h.arrived
  status := by
    intro cause failed
    exact unaryResponse_of_status h failed
  framing := by
    intro ok code
    simp only [unaryResponse_of_isOk h ok, conclude_eq_withFailure_iff h.arrived]
    exact singleMessage_eq_error_iff.symm

/-- What the response of a unary call of gRPC-Web becomes. -/
structure OneWebMessage (c : ClientConfig σ) (r : Http.Response) : Prop where
  /-- The call succeeds exactly if its body is a frame with a message and one with the trailers of a
  success. -/
  success : (unaryWebResponse c r).cause = none ↔
    ∃ message trailers, WebBody.Reads (poolOf c r.headers) r.body ⟨some message, trailers⟩ ∧
      (Completion.parse r.headers true trailers).isOk = true
  message : ∀ message trailers,
    WebBody.Reads (poolOf c r.headers) r.body ⟨some message, trailers⟩ →
      (Completion.parse r.headers true trailers).isOk = true →
        unaryWebResponse c r = { r with body := message, trailers }
  /-- Otherwise there is a failure and no body. -/
  failure : (unaryWebResponse c r).cause ≠ none → (unaryWebResponse c r).body = []
  status : ∀ message trailers,
    WebBody.Reads (poolOf c r.headers) r.body ⟨some message, trailers⟩ →
      ∀ cause, (Completion.parse r.headers true trailers).failure? = some cause →
        unaryWebResponse c r = { r with trailers }.withFailure cause
  /-- Trailers alone are a failure even if they are those of a success. -/
  trailers : ∀ trailers, WebBody.Reads (poolOf c r.headers) r.body ⟨none, trailers⟩ →
    unaryWebResponse c r = { r with trailers }.withFailure
      ((Completion.parse r.headers false trailers).failure?.getD noMessages)
  empty : r.body = [] → unaryWebResponse c r =
    r.withFailure ((Completion.parse r.headers false r.trailers).failure?.getD noMessages)
  framing : ∀ code, WebBody.Misframed (poolOf c r.headers) r.body code →
    ∃ cause, unaryWebResponse c r = r.withFailure cause ∧ cause.code = code

/-- A call of gRPC-Web is a success with a message and trailers, or there is a failure in place of
the body. -/
theorem unaryWebResponse_cases (h : IsAccepted .grpcWeb c r) :
    (∃ message trailers, WebBody.Reads (poolOf c r.headers) r.body ⟨some message, trailers⟩ ∧
      (Completion.parse r.headers true trailers).isOk = true ∧
      unaryWebResponse c r = { r with body := message, trailers }) ∨
    ∃ trailers cause, unaryWebResponse c r = { r with trailers }.withFailure cause := by
  by_cases nothing : r.body = []
  · exact .inr ⟨r.trailers, _, unaryWebResponse_of_empty h nothing⟩
  rcases WebBody.reads_or_misframed (poolOf c r.headers) nothing with ⟨b, reads⟩ | ⟨code, wrong⟩
  · obtain ⟨_ | message, trailers⟩ := b
    · exact .inr ⟨trailers, _, unaryWebResponse_of_trailers h reads⟩
    · cases failed : (Completion.parse r.headers true trailers).failure? with
      | none =>
        have ok := (Completion.failure?_eq_none_iff _).mp failed
        exact .inl ⟨message, trailers, reads, ok, unaryWebResponse_of_isOk h reads ok⟩
      | some cause => exact .inr ⟨trailers, cause, unaryWebResponse_of_status h reads failed⟩
  · obtain ⟨cause, read, -⟩ := unaryWebResponse_of_misframed h wrong
    exact .inr ⟨r.trailers, cause, read⟩

theorem IsAccepted.oneWebMessage (h : IsAccepted .grpcWeb c r) : OneWebMessage c r where
  success := by
    constructor
    · intro clean
      rcases unaryWebResponse_cases h with ⟨message, trailers, reads, ok, -⟩ | ⟨_, _, read⟩
      · exact ⟨message, trailers, reads, ok⟩
      · rw [read] at clean
        cases clean
    · rintro ⟨message, trailers, reads, ok⟩
      rw [unaryWebResponse_of_isOk h reads ok]
      exact h.arrived
  message := by
    intro message trailers reads ok
    exact unaryWebResponse_of_isOk h reads ok
  failure := by
    intro failed
    rcases unaryWebResponse_cases h with ⟨message, trailers, -, -, read⟩ | ⟨_, _, read⟩
    · rw [read] at failed
      exact absurd h.arrived failed
    · rw [read]
      rfl
  status := by
    intro message trailers reads cause failed
    exact unaryWebResponse_of_status h reads failed
  trailers := by
    intro trailers reads
    exact unaryWebResponse_of_trailers h reads
  empty := unaryWebResponse_of_empty h
  framing := by
    intro code misframed
    exact unaryWebResponse_of_misframed h misframed

end Grpc

open Grpc (OneMessage OneWebMessage poolOf unaryResponse unaryWebResponse)

/-- Of a response with status 200 and an accepted media type, gRPC and gRPC-Web make a success
exactly if it holds one message and a status that says so. -/
theorem one_message (c : ClientConfig σ) (r : Http.Response) (arrived : r.cause = none)
    (status : r.status = some 200) :
    (Protocol.grpc.accepts c.encoding (mediaTypeOf r.headers) = true →
      OneMessage c r (.parse r.headers (r.body != []) r.trailers)) ∧
    (Protocol.grpcWeb.accepts c.encoding (mediaTypeOf r.headers) = true → OneWebMessage c r) := by
  refine ⟨?_, ?_⟩
  · intro type
    exact Grpc.IsAccepted.oneMessage ⟨arrived, status, type⟩
  · intro type
    exact Grpc.IsAccepted.oneWebMessage ⟨arrived, status, type⟩

/-! ## A compressed message, and trailers with something after them -/

/-- A client that knows a pool. -/
def flipClient : ClientConfig Unit := { clientOf .grpc with pools := ⟨[.reversing "flip"]⟩ }

/-- A response with one message that is written backwards. -/
def flippedResponse : Http.Response :=
  .arrived 200
    (.ofTexts [("content-type", "application/grpc+proto"), (FieldName.grpcEncoding, "flip")])
    (Envelope.frame 1 [9, 8, 7]) (.ofTexts [("grpc-status", "0")])

/-- A response with something after the trailers. -/
def overlongResponse : Http.Response :=
  .arrived 200 (headersOf .grpcWeb) (okTrailers ++ [0]) .empty

theorem one_message_flipped :
    unaryResponse flipClient flippedResponse = { flippedResponse with body := [7, 8, 9] } ∧
      ∃ cause, unaryWebResponse (clientOf .grpcWeb) overlongResponse =
        overlongResponse.withFailure cause ∧ cause.code = .internal := by
  have grpc := (one_message flipClient flippedResponse rfl rfl).1 (by decide +kernel)
  have web := (one_message (clientOf .grpcWeb) overlongResponse rfl rfl).2 (by decide +kernel)
  refine ⟨?_, ?_⟩
  · have pool : poolOf flipClient flippedResponse.headers = some (.reversing "flip") := by
      have named : flippedResponse.headers.text? FieldName.grpcEncoding = some "flip" := by
        decide +kernel
      have listed : Registry.IsListed "flip" := ⟨by decide, by decide, by decide +kernel⟩
      rw [poolOf, named, Registry.resolve?_of_isListed _ listed ⟨by decide, by decide⟩]
      rfl
    have marked : Envelope.IsMarked flippedResponse.body := by decide
    have carries : Carries (poolOf flipClient flippedResponse.headers) flippedResponse.body
        [7, 8, 9] := by
      rw [pool]
      exact ⟨by decide, (Envelope.holds_iff_of_marked marked).mpr ⟨_, rfl, rfl⟩⟩
    exact grpc.message (by decide +kernel) _ carries
  · have closes : Carries (poolOf (clientOf .grpcWeb) overlongResponse.headers) okTrailers
        (okTrailers.drop Envelope.headerSize) :=
      ⟨by decide +kernel, (Envelope.holds_iff_of_unmarked (by decide +kernel)).mpr rfl⟩
    exact web.framing _ (.surplus (.trailers closes (by decide +kernel)) (by decide))

end RpcWire
