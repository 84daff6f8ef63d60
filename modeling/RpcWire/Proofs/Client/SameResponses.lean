import RpcWire.Proofs.Client.OneMessage
import RpcWire.Proofs.Session.Bounded
import RpcWire.Proofs.Session.Shown
import RpcWire.Proofs.Transport.Arrival

/-!
# The same responses, collected and frame by frame

A client of gRPC can collect a response before it looks at it, or open a stream
and wait for the single message on it. The first looks at the status and then at
the whole body, the second at one frame after another, and at the status last.
Both end up with a message exactly if the response answers with it: the media
type is accepted, the trailers came and say so, and the body is one frame with
the message (`Grpc.Answers`).

* `Grpc.outcome_response_iff`: a response that is collected;
* `Grpc.shown_frames`, `Grpc.outcome_shownOf_iff`: one that is shown on a stream;
* `same_responses`: calls with a response that is collected, and all calls with a
  stream on which it arrives.
-/

namespace RpcWire

variable {σ : Type}

open Envelope (Carries IsWhole Splitter flagsOf)
open Transport (Arrival)

/-! ## Whole frames -/

theorem Envelope.IsWhole.eq_nil_of_append {f more : Bytes} (whole : IsWhole f)
    (longer : IsWhole (f ++ more)) : more = [] := by
  have length := (whole.wholeLength?_append more).symm.trans longer
  rw [Option.some.injEq, List.length_append] at length
  exact List.length_eq_zero_iff.mp (by omega)

theorem Envelope.Carries.unique {pool : Option Pool} {f message other : Bytes}
    (h : Carries pool f message) (h' : Carries pool f other) : message = other := by
  have taken := Protocol.grpc.takeFrame_of_carries h []
  rw [Protocol.grpc.takeFrame_of_carries h' []] at taken
  cases taken
  rfl

/-- A whole frame that carries nothing is refused. -/
theorem Protocol.takeFrame_of_whole (p : Protocol) {pool : Option Pool} {f : Bytes}
    (whole : IsWhole f) (nothing : ∀ message, ¬ Carries pool f message) :
    ∃ cause, p.takeFrame f pool = .error cause := by
  have unreadable : Envelope.Unreadable pool f := by
    rintro g more message rfl carries
    -- nothing can follow a frame inside of another
    rw [carries.whole.eq_nil_of_append whole, List.append_nil] at nothing
    exact nothing message carries
  obtain ⟨cause, refused, -⟩ := p.takeFrame_of_unreadable whole.ne_nil unreadable
  exact ⟨cause, refused⟩

namespace Grpc

variable {c : ClientConfig σ} {β : Type} [Message β]

/-! ## Answers -/

/-- Octets are one frame of which a client makes a message. -/
def Gives (c : ClientConfig σ) (pool : Option Pool) (f : Bytes) (m : β) : Prop :=
  ∃ payload, Carries pool f payload ∧ c.encoding.decode payload = .ok m

/-- A response answers a call with a message. -/
structure Answers (c : ClientConfig σ) (headers : Metadata) (body : Bytes)
    (trailers : Option Metadata) (m : β) : Prop where
  type : Protocol.grpc.accepts c.encoding (mediaTypeOf headers) = true
  ok : ∃ told, trailers = some told ∧ told.SaysOk
  gives : Gives c (poolOf c headers) body m

/-! ## A response that is collected -/

theorem outcome_conclude {r : Http.Response} (arrived : r.cause = none)
    (o : Except Failure Bytes) : (Reply.ofResponse (conclude r o)).outcome = o := by
  cases o with
  | error cause => rfl
  | ok body =>
    unfold Reply.ofResponse conclude
    simp only [arrived]

theorem outcome_andThen {α γ : Type} (r : Reply α) (convert : α → Except Failure γ) :
    (r.andThen convert).outcome = r.outcome >>= convert := rfl

/-- Of a response that is collected a client makes the message it answers with. -/
theorem outcome_response_iff {headers : Metadata} {chunks : List Bytes}
    {trailers : Option Metadata} {m : β} :
    ((Reply.ofResponse (unaryResponse c (Arrival.response 200 headers chunks trailers).toResponse)
      ).andThen c.encoding.decode).outcome = .ok m ↔
      Answers c headers chunks.flatten trailers m := by
  cases trailers with
  | none =>
    -- what was broken off is a failure
    constructor
    · intro read
      cases read
    · intro answers
      obtain ⟨told, there, -⟩ := answers.ok
      cases there
  | some trailers =>
    have made : (Reply.ofResponse (unaryResponse c (Arrival.response 200 headers chunks
        (some trailers)).toResponse)).outcome =
        outcome c 200 (.arrived 200 headers chunks.flatten trailers) := outcome_conclude rfl _
    rw [outcome_andThen, made, bind_eq_ok_iff]
    simp only [outcome_eq_ok_iff, Protocol.opens_iff]
    constructor
    · rintro ⟨payload, ⟨-, type, ok, flags, carries, -⟩, decoded⟩
      exact ⟨type, ⟨trailers, rfl, ok⟩, payload, carries, decoded⟩
    · rintro ⟨type, ⟨told, there, ok⟩, payload, carries, decoded⟩
      cases there
      exact ⟨payload, ⟨trivial, type, ok, _, carries, rfl⟩, decoded⟩

/-! ## A response that is shown on a stream -/

theorem event_eq (family : c.family = .grpc) (s : StreamState) (e : Event Bytes) :
    (protocolStream c).event s e = streamEvent .grpc c s e := by
  show protocolEvent c s e = _
  unfold protocolEvent
  rw [family]

/-- A frame that carries a message is handed on as this message. -/
theorem event_of_carries (family : c.family = .grpc) {s : StreamState} {f payload : Bytes}
    (carries : Carries s.pool f payload) :
    (protocolStream c).event s (.message f) =
      (.message payload, { s with seenMessage := true }) := by
  have taken := Protocol.grpc.takeFrame_of_carries carries []
  rw [List.append_nil] at taken
  rw [event_eq family]
  simp only [streamEvent, taken]
  rfl

/-- A whole frame that carries none ends the stream with a failure. -/
theorem event_of_whole (family : c.family = .grpc) {s : StreamState} {f : Bytes}
    (whole : IsWhole f) (nothing : ∀ message, ¬ Carries s.pool f message) :
    ∃ cause, ((protocolStream c).event s (.message f)).1 = .fail cause := by
  obtain ⟨cause, refused⟩ := Protocol.grpc.takeFrame_of_whole whole nothing
  rw [event_eq family]
  simp only [streamEvent, refused]
  exact ⟨cause, rfl⟩

/-- Messages and a completion, which has no cause exactly if the messages are right. -/
def SucceedsWith (right : List β → Prop) (es : List (Event β)) : Prop :=
  ∃ ms cause trailers, es = ms.map .message ++ [.complete cause trailers] ∧
    ∀ ns, cause = none ∧ ms = ns ↔ right ns

omit [Message β] in
theorem SucceedsWith.failed {right : List β → Prop} (wrong : ∀ ns, ¬ right ns) (cause : Failure)
    (trailers : Metadata) : SucceedsWith right [.complete (some cause) trailers] := by
  refine ⟨[], some cause, trailers, rfl, ?_⟩
  intro ns
  constructor
  · intro h
    cases h.1
  · intro h
    exact absurd h (wrong ns)

omit [Message β] in
theorem SucceedsWith.cons {right later : List β → Prop} {es : List (Event β)} {m : β}
    (h : SucceedsWith later es) (first : ∀ ns, right ns ↔ ∃ rest, ns = m :: rest ∧ later rest) :
    SucceedsWith right (.message m :: es) := by
  obtain ⟨ms, cause, trailers, rfl, clean⟩ := h
  refine ⟨m :: ms, cause, trailers, rfl, ?_⟩
  intro ns
  rw [first]
  constructor
  · rintro ⟨none, rfl⟩
    exact ⟨ms, rfl, (clean ms).mp ⟨none, rfl⟩⟩
  · rintro ⟨rest, rfl, right⟩
    obtain ⟨none, rfl⟩ := (clean rest).mpr right
    exact ⟨none, rfl⟩

/-- The messages that frames give, nothing being broken off and the status being zero. -/
structure Transmits (c : ClientConfig σ) (s : StreamState) (frames : List Bytes)
    (last : Option Failure) (trailers : Metadata) (ms : List β) : Prop where
  gives : List.Forall₂ (Gives c s.pool) frames ms
  whole : last = none
  ok : (Completion.source s.headers (s.seenMessage || !frames.isEmpty) trailers).SaysOk

theorem gives_iff {pool : Option Pool} {f payload : Bytes} (carries : Carries pool f payload)
    {m : β} : Gives c pool f m ↔ c.encoding.decode payload = .ok m := by
  constructor
  · rintro ⟨other, carries', decoded⟩
    rwa [carries'.unique carries] at decoded
  · intro decoded
    exact ⟨payload, carries, decoded⟩

/-- Frames of which the first gives no message transmit none. -/
theorem not_transmits_of_first {s : StreamState} {f : Bytes} {frames : List Bytes}
    {last : Option Failure} {trailers : Metadata} (nothing : ∀ m : β, ¬ Gives c s.pool f m)
    (ns : List β) : ¬ Transmits c s (f :: frames) last trailers ns := by
  intro transmits
  cases transmits.gives with
  | cons first _ => exact nothing _ first

/-- The first message is that of the first frame, and the others are seen to follow it. -/
theorem transmits_cons_iff {s : StreamState} {f : Bytes} {frames : List Bytes}
    {last : Option Failure} {trailers : Metadata} {m : β} (gives : Gives c s.pool f m)
    (ns : List β) :
    Transmits c s (f :: frames) last trailers ns ↔
      ∃ rest, ns = m :: rest ∧
        Transmits c { s with seenMessage := true } frames last trailers rest := by
  obtain ⟨payload, carries, decoded⟩ := gives
  constructor
  · rintro ⟨all, unbroken, ok⟩
    cases all with
    | cons first rest =>
      have read := (gives_iff carries).mp first
      rw [decoded] at read
      cases read
      exact ⟨_, rfl, rest, unbroken, by simpa using ok⟩
  · rintro ⟨rest, rfl, all, unbroken, ok⟩
    exact ⟨.cons ⟨payload, carries, decoded⟩ all, unbroken, by simpa using ok⟩

/-- A stream without frames succeeds if it is not broken off and its status is zero. -/
theorem shown_end (family : c.family = .grpc) (last : Option Failure) (trailers : Metadata)
    (s : StreamState) :
    SucceedsWith (Transmits (β := β) c s [] last trailers)
      (shown β c.encoding true ((protocolStream c).produce s [.complete last trailers])) := by
  simp only [StreamHook.produce, event_eq family]
  cases last with
  | some fault =>
    simp only [streamEvent, shown_complete]
    refine .failed ?_ fault trailers
    rintro ns ⟨-, unbroken, -⟩
    cases unbroken
  | none =>
    simp only [streamEvent, completeFrom, shown_complete]
    refine ⟨[], _, _, rfl, ?_⟩
    intro ns
    rw [Completion.failure?_parse_eq_none_iff]
    constructor
    · rintro ⟨ok, rfl⟩
      refine ⟨.nil, rfl, ?_⟩
      rwa [List.isEmpty_nil, Bool.not_true, Bool.or_false]
    · rintro ⟨gives, -, ok⟩
      rw [List.isEmpty_nil, Bool.not_true, Bool.or_false] at ok
      exact ⟨ok, (List.forall₂_nil_left_iff.mp gives).symm⟩

/-- A stream of frames succeeds with the messages that its frames give, if all of them give one and
the end is right. -/
theorem shown_frames (family : c.family = .grpc) {frames : List Bytes}
    (whole : ∀ f ∈ frames, IsWhole f) (last : Option Failure) (trailers : Metadata)
    (s : StreamState) :
    SucceedsWith (Transmits (β := β) c s frames last trailers)
      (shown β c.encoding true
        ((protocolStream c).produce s (frames.map .message ++ [.complete last trailers]))) := by
  induction frames generalizing s with
  | nil => exact shown_end family last trailers s
  | cons f frames ih =>
    rw [List.map_cons, List.cons_append, StreamHook.produce]
    by_cases carries : ∃ payload, Carries s.pool f payload
    · obtain ⟨payload, carries⟩ := carries
      rw [event_of_carries family carries]
      cases decoded : c.encoding.decode (α := β) payload with
      | error cause =>
        -- the payload of the frame is no message
        rw [shown_unreadable decoded]
        refine .failed (not_transmits_of_first ?_) cause .empty
        intro m
        rw [gives_iff carries, decoded]
        intro read
        cases read
      | ok m =>
        rw [shown_message decoded]
        have later := ih (fun g hg => whole g (List.mem_cons_of_mem _ hg))
          { s with seenMessage := true }
        exact later.cons (transmits_cons_iff ⟨payload, carries, decoded⟩)
    · have nothing : ∀ payload, ¬ Carries s.pool f payload := not_exists.mp carries
      obtain ⟨cause, made⟩ := event_of_whole family (whole f List.mem_cons_self) nothing
      rw [made, Event.fail, shown_complete]
      refine .failed (not_transmits_of_first ?_) cause cause.metadata
      rintro m ⟨payload, carries, -⟩
      exact nothing payload carries

/-- The transport ends cleanly exactly if there were trailers and no part of a frame is left. -/
theorem ending_eq_clean_iff {rest : Bytes} {trailers : Option Metadata} {told : Metadata} :
    Arrival.ending ⟨rest⟩ trailers = .complete none told ↔ trailers = some told ∧ rest = [] := by
  cases trailers with
  | none =>
    constructor
    · intro ends
      cases ends
    · intro h
      cases h.1
  | some given =>
    unfold Arrival.ending
    have finished := @Splitter.finish_eq_ok_iff ⟨rest⟩
    cases finish : Splitter.finish ⟨rest⟩ with
    | ok _ =>
      have empty : rest = [] := finished.mp finish
      simp [empty]
    | error cause =>
      have left : rest ≠ [] := by
        intro empty
        rw [finished.mpr empty] at finish
        cases finish
      simp [Event.fail, left]

/-- Frames transmit a single message exactly if the body that they were cut from is one frame with
this message. -/
theorem transmits_one_iff {headers told : Metadata} {body rest : Bytes} {frames : List Bytes}
    {trailers : Option Metadata} {last : Option Failure} {m : β}
    (cut : Envelope.Cuts body frames rest)
    (ends : Arrival.ending ⟨rest⟩ trailers = .complete last told) :
    Protocol.grpc.accepts c.encoding (mediaTypeOf headers) = true ∧
        Transmits c ⟨poolOf c headers, headers, false⟩ frames last told [m] ↔
      Answers c headers body trailers m := by
  constructor
  · rintro ⟨type, all, rfl, ok⟩
    obtain ⟨there, nothing⟩ := ending_eq_clean_iff.mp ends
    obtain ⟨f, gives, rfl⟩ : ∃ f, Gives c (poolOf c headers) f m ∧ frames = [f] := by
      cases all with
      | cons first rest =>
        cases rest
        exact ⟨_, first, rfl⟩
    have joined := cut.joined
    rw [nothing, List.append_nil, List.flatten_singleton] at joined
    exact ⟨type, ⟨told, there, ok⟩, joined ▸ gives⟩
  · rintro ⟨type, ⟨given, there, ok⟩, payload, carries, decoded⟩
    -- a body that is one frame is cut into this frame
    have whole : ∀ f ∈ [body], IsWhole f := by
      intro f there
      rw [List.mem_singleton.mp there]
      exact carries.whole
    have one := Envelope.splitWhole_wholes whole []
    rw [List.flatten_singleton, List.append_nil, cut.unique, Envelope.splitWhole_nil,
      List.append_nil] at one
    obtain ⟨rfl, rfl⟩ := Prod.mk.inj one
    rw [ending_eq_clean_iff.mpr ⟨there, rfl⟩] at ends
    cases ends
    exact ⟨type, .cons ⟨payload, carries, decoded⟩ .nil, rfl, ok⟩

omit [Message β] in
/-- What is received one by one is one success exactly if it is a single message with a clean end.
-/
theorem outcome_ofEvents_iff {headers : Metadata} {right : List β → Prop} {es : List (Event β)}
    (h : SucceedsWith right es) {m : β} :
    (Reply.ofEvents (.headers headers :: es)).outcome = .ok m ↔ right [m] := by
  obtain ⟨ms, cause, trailers, rfl, clean⟩ := h
  rw [Reply.ofEvents, Gathered.close, Gathered.reply_full]
  exact ((Gathered.outcome_ofMessages headers ms cause).1 m).trans (clean [m])

/-- What is shown of a response on a stream. -/
def shownOf (β : Type) [Message β] (c : ClientConfig σ) (a : Arrival) : List (Event β) :=
  shown β c.encoding false ((protocolStream c).produce .fresh a.events)

theorem shownOf_response_refused (family : c.family = .grpc) {headers : Metadata}
    (refused : Protocol.grpc.accepts c.encoding (mediaTypeOf headers) ≠ true) (chunks : List Bytes)
    (trailers : Option Metadata) :
    ∃ cause, shownOf β c (.response 200 headers chunks trailers) =
      [.complete (some cause) cause.metadata] := by
  cases checked : Protocol.grpc.checkType c.encoding headers with
  | ok _ => exact absurd (Protocol.checkType_eq_ok_iff.mp checked) refused
  | error cause =>
    refine ⟨cause, ?_⟩
    show shown β c.encoding false (((protocolStream c).event .fresh (.headers headers)).1 :: _) = _
    rw [event_eq family]
    simp only [streamEvent, streamHeaders, checked]
    exact shown_complete false _ _ _

/-- The headers of a response with an accepted media type are shown, and then the frames that its
body is cut into. -/
theorem shownOf_response (family : c.family = .grpc) {headers : Metadata}
    (type : Protocol.grpc.accepts c.encoding (mediaTypeOf headers) = true) (chunks : List Bytes)
    {trailers : Option Metadata} {last : Option Failure} {told : Metadata}
    (ends : Arrival.ending ⟨(Envelope.splitWhole chunks.flatten).2⟩ trailers =
      .complete last told) :
    shownOf β c (.response 200 headers chunks trailers) =
      .headers headers :: shown β c.encoding true
        ((protocolStream c).produce ⟨poolOf c headers, headers, false⟩
          ((Envelope.splitWhole chunks.flatten).1.map .message ++ [.complete last told])) := by
  have events : (Arrival.response 200 headers chunks trailers).events =
      .headers headers :: ((Envelope.splitWhole chunks.flatten).1.map .message ++
        [.complete last told]) := by
    unfold Arrival.events
    simp only [Splitter.pushAll_fresh, ends]
    rfl
  have opened : (protocolStream c).event .fresh (.headers headers) =
      (.headers headers, ⟨poolOf c headers, headers, false⟩) := by
    rw [event_eq family]
    simp only [streamEvent, streamHeaders, Protocol.checkType_eq_ok_iff.mpr type]
    rfl
  rw [shownOf, events, StreamHook.produce, opened]
  rfl

/-- It comes to an end, and makes a reply with the message that the response answers with. -/
theorem outcome_shownOf_iff (family : c.family = .grpc) (headers : Metadata) (chunks : List Bytes)
    (trailers : Option Metadata) :
    (∃ cause told, .complete cause told ∈ shownOf β c (.response 200 headers chunks trailers)) ∧
      ∀ m, (Reply.ofEvents (shownOf β c (.response 200 headers chunks trailers))).outcome = .ok m ↔
        Answers c headers chunks.flatten trailers m := by
  by_cases type : Protocol.grpc.accepts c.encoding (mediaTypeOf headers) = true
  · obtain ⟨last, told, ends, -⟩ :=
      Transport.Arrival.ending_eq ⟨(Envelope.splitWhole chunks.flatten).2⟩ trailers
    have cut := Envelope.cuts_splitWhole chunks.flatten
    have succeeds := shown_frames (β := β) family cut.whole last told
      ⟨poolOf c headers, headers, false⟩
    rw [shownOf_response family type chunks ends]
    constructor
    · obtain ⟨ms, cause, given, shows, -⟩ := succeeds
      refine ⟨cause, given, ?_⟩
      rw [shows]
      simp
    · intro m
      rw [outcome_ofEvents_iff succeeds, ← transmits_one_iff cut ends, and_iff_right type]
  · obtain ⟨cause, shows⟩ := shownOf_response_refused (β := β) family type chunks trailers
    rw [shows]
    refine ⟨⟨some cause, cause.metadata, List.mem_singleton_self _⟩, ?_⟩
    intro m
    constructor
    · intro succeeded
      cases succeeded
    · intro answers
      exact absurd answers.type type

/-- The reply that is made of a response that is collected. -/
def collected (β : Type) [Message β] {τ : Type} (c : ClientConfig σ) (own : τ) (a : Arrival) :
    Reply β :=
  (Reply.ofResponse ((protocolUnary c).response own a.toResponse).1).andThen c.encoding.decode

theorem outcome_collected_iff (family : c.family = .grpc) {τ : Type} (own : τ)
    (headers : Metadata) (chunks : List Bytes) (trailers : Option Metadata) (m : β) :
    (collected β c own (.response 200 headers chunks trailers)).outcome = .ok m ↔
      Answers c headers chunks.flatten trailers m := by
  rw [← outcome_response_iff, collected, protocolUnary, family]
  rfl

end Grpc

/-! ## Calls -/

open Grpc (collected)

variable {α β : Type} [Message α] [Message β]

/-- Two replies are successes with the same messages. -/
def Reply.Agrees (r other : Reply β) : Prop := ∀ m, r.outcome = .ok m ↔ other.outcome = .ok m

/-- A response with status 200 on a stream of gRPC, told in order while its caller and the clock do
whatever they do without an abort. Every reply that is made of it, of what its caller has received
or at once, is a success with a message exactly if the collected response is one; and once all of
it has been told, there is a reply. -/
theorem same_responses {c : ClientConfig σ} (family : c.family = .grpc) {τ : Type} (own : τ)
    (headers : Metadata) (chunks : List Bytes) (trailers : Option Metadata) (capacity : Nat)
    (deadline : Option Nanoseconds) (actions : List (Favour × Action α))
    {left : List (Event Bytes)} {seen : List (Observation β)} {t : Session StreamMemory}
    (tells : Tells (Arrival.response 200 headers chunks trailers).events actions left)
    (run : (Session.start (.opened (protocolStream c) c.encoding .fresh (.fresh capacity)
      deadline)).run β actions = (seen, t))
    (held : t.held = true) (unaborted : ¬ t.stream.phase.isAborted) :
    let other := collected β c own (.response 200 headers chunks trailers)
    (∀ r, Gathered.empty.await seen = some r → r.Agrees other) ∧
      (received seen = [] → ∀ f : Favour,
        let atOnce := t.perform (α := α) β f (.caller .closeAndReceive)
        ¬ atOnce.2.stream.phase.isAborted →
          (∀ r, atOnce.1 = .reply r → r.Agrees other) ∧
          (left = [] → ∃ r, atOnce.1 = .reply r)) := by
  intro other
  obtain ⟨whole, outcome⟩ := Grpc.outcome_shownOf_iff (β := β) family headers chunks trailers
  have agrees : (Reply.ofEvents (Grpc.shownOf β c (.response 200 headers chunks trailers))).Agrees
      other := by
    intro m
    rw [outcome m, Grpc.outcome_collected_iff family]
  have steady : (protocolStream c).IsSteady := fun _ _ => rfl
  obtain ⟨waiting, atOnce⟩ := Session.replies_shown (.opened _ _ _ _ _) steady whole
    (Stream.showing_opened (protocolStream c) c.encoding .fresh capacity deadline _) tells run held
    unaborted
  constructor
  · intro r replied
    rw [waiting r replied]
    exact agrees
  · intro silent f _ still
    obtain ⟨same, ends⟩ := atOnce silent f
    refine ⟨?_, ends⟩
    intro r replied
    rw [same r replied still]
    exact agrees

/-- A response with one message, whose frame is cut inside its header. -/
def cutResponse : Arrival :=
  .response 200 (headersOf .grpc) [[0, 0, 0], [0, 3, 10, 1], [65]]
    (some (.ofTexts [("grpc-status", "0")]))

/-- It is told while a note is sent, and the cancellation comes too late to be noticed. -/
def toldMeanwhile : List (Favour × Action Note) :=
  [.deliver (.headers (headersOf .grpc)), .caller (.send ⟨"B", 0, []⟩),
    .deliver (.message [0, 0, 0, 0, 3, 10, 1, 65]), .fire,
    .deliver (.complete none (.ofTexts [("grpc-status", "0")])), .hangUp].map (⟨true, true⟩, ·)

/-- A stream of gRPC of which nothing has been done. -/
def grpcStream : Stream StreamMemory :=
  .opened (protocolStream (clientOf .grpc)) .proto .fresh (.fresh 1) none

theorem same_responses_cut :
    let told := ((Session.start grpcStream).run Note toldMeanwhile).2
    let atOnce := told.perform Note ⟨true, true⟩ (.caller .closeAndReceive : Action Note)
    Tells cutResponse.events toldMeanwhile [] ∧ told.held = true ∧
      ¬ told.stream.phase.isAborted ∧ ¬ atOnce.2.stream.phase.isAborted ∧
      (∃ r, atOnce.1 = .reply r ∧ r.outcome = .ok ⟨"A", 0, []⟩) ∧
      (collected Note (clientOf .grpc) () cutResponse).outcome = .ok ⟨"A", 0, []⟩ := by
  have events : cutResponse.events = [.headers (headersOf .grpc),
      .message [0, 0, 0, 0, 3, 10, 1, 65], .complete none (.ofTexts [("grpc-status", "0")])] := by
    decide +kernel
  have tells : Tells cutResponse.events toldMeanwhile [] := by
    rw [events]
    exact .deliver _ (.other _ rfl (.deliver _ (.other _ rfl (.deliver _
      (.hangUp _ (.nothing _))))))
  have succeeded : (collected Note (clientOf .grpc) () cutResponse).outcome =
      .ok ⟨"A", 0, []⟩ := by
    decide +kernel
  have silent : received ((Session.start grpcStream).run Note toldMeanwhile).1 = [] := by
    decide +kernel
  have held : ((Session.start grpcStream).run Note toldMeanwhile).2.held = true := by
    decide +kernel
  have unaborted :
      ¬ ((Session.start grpcStream).run Note toldMeanwhile).2.stream.phase.isAborted := by
    decide +kernel
  have completed : (((Session.start grpcStream).run Note toldMeanwhile).2.perform Note
      ⟨true, true⟩ (.caller .closeAndReceive : Action Note)).2.stream.phase = .completed :=
    Session.run_of_within 4 ((Session.start grpcStream).run Note toldMeanwhile).2
      [(⟨true, true⟩, (.caller .closeAndReceive : Action Note))] (fun r => r.2.stream.phase)
      (by decide +kernel)
  have still : ¬ (((Session.start grpcStream).run Note toldMeanwhile).2.perform Note
      ⟨true, true⟩ (.caller .closeAndReceive : Action Note)).2.stream.phase.isAborted := by
    rw [completed]
    decide
  refine ⟨tells, held, unaborted, still, ?_, succeeded⟩
  rcases run : (Session.start grpcStream).run Note toldMeanwhile with ⟨seen, t⟩
  rw [run] at silent held unaborted still
  obtain ⟨-, atOnce⟩ := same_responses (c := clientOf .grpc) rfl () (headersOf .grpc) _ _ 1 none
    toldMeanwhile tells run held unaborted
  obtain ⟨agrees, ends⟩ := atOnce silent ⟨true, true⟩ still
  obtain ⟨r, replied⟩ := ends rfl
  exact ⟨r, replied, (agrees r replied _).mpr succeeded⟩

end RpcWire
