import RpcWire.Proofs.Session.Bounded
import RpcWire.Proofs.Session.Received

/-!
# How a clean end comes about

A completion without a cause is never made up by a stream: it is what the hook
made of the last event that it was given (`Stream.Concluded`). With the hook of
Connect that event is either a frame that ends the stream without a failure or
the transport's own completion, which is passed on as it is. So a stream that
is cut short between two frames ends as if it were whole
(`endOfStream_of_clean_complete`, `cutShort_clean`).
-/

namespace RpcWire

variable {σ τ : Type}

/-! ## The last event of a stream -/

namespace Stream

/-- The last event of a log, and no other, is one of which the hook made a completion; it has no
cause. -/
def LastClean (h : StreamHook σ) (log : EventLog σ) (trailers : Metadata) : Prop :=
  ∃ earlier x, log = earlier ++ [x] ∧ (h.event x.1 x.2).1 = .complete none trailers ∧
    ∀ y ∈ earlier, (h.event y.1 y.2).1.isComplete = false

/-- What the state of a stream that keeps a log says of the completions its hook has made: none as
long as the stream is not over, and the last of all events where it ended without a cause. -/
structure Concluded {β : Type} (h : StreamHook σ) (s : Stream (σ × EventLog σ))
    (read : List (Event β)) : Prop where
  hook : s.hook = h.logged
  caused : ∀ trailers, .complete none trailers ∉ s.pending
  running : s.completed = false → ∀ x ∈ s.memory.2, (h.event x.1 x.2).1.isComplete = false
  unfinished : s.completed = false → ∀ cause trailers, .complete cause trailers ∉ read
  clean : ∀ trailers, .complete none trailers ∈ read → LastClean h s.memory.2 trailers

/-- The same while the next event has been looked up and not yet handed out. -/
structure Concluding (h : StreamHook σ) (t : Stream (σ × EventLog σ)) (next : Event Bytes) :
    Prop where
  hook : t.hook = h.logged
  running : t.completed = false
  caused : ∀ trailers, .complete none trailers ∉ t.pending
  incomplete : next.isComplete = false → ∀ x ∈ t.memory.2, (h.event x.1 x.2).1.isComplete = false
  clean : ∀ trailers, next = .complete none trailers → LastClean h t.memory.2 trailers

variable {β : Type} {h : StreamHook σ} {s t : Stream (σ × EventLog σ)} {read : List (Event β)}

/-- Where the next event ends the stream as a success, the hook has just made that end. -/
theorem Concluded.concluding {next : Event Bytes} (hc : Concluded h s read)
    (running : s.completed = false) (hn : s.Next (some next, t)) : Concluding h t next := by
  have none_made := hc.running running
  generalize hr : (some next, t) = r at hn
  cases hn with
  | asleep hp _ => cases hr
  | @pending first rest hp =>
    cases hr
    have caused := hc.caused
    rw [hp] at caused
    -- the log is as it was, and no clean completion is ever pending
    refine ⟨hc.hook, running, ?_, fun _ => none_made, ?_⟩
    · intro trailers there
      exact caused trailers (List.mem_cons_of_mem _ there)
    · intro trailers he
      exact absurd (he ▸ List.mem_cons_self) (caused trailers)
  | @arrived arrived link hp ha =>
    cases hr
    have made : (s.hook.event s.memory arrived).1 = (h.event s.memory.1 arrived).1 := by
      rw [hc.hook, h.event_logged]
    have noted : (s.hook.event s.memory arrived).2.2 = s.memory.2 ++ [(s.memory.1, arrived)] := by
      rw [hc.hook, h.event_logged]
    refine ⟨hc.hook, running, hc.caused, ?_, ?_⟩
    · -- the log has grown by one entry, of which the hook made no completion either
      intro incomplete x hx
      simp only [noted, List.mem_append, List.mem_singleton] at hx
      rcases hx with hx | rfl
      · exact none_made x hx
      · rw [← made]
        exact incomplete
    · intro trailers he
      exact ⟨s.memory.2, (s.memory.1, arrived), noted, made ▸ he, none_made⟩
  | aborted a hp =>
    cases hr
    -- an abort has a cause
    refine ⟨hc.hook, running, ?_, fun _ => none_made, ?_⟩
    · intro trailers there
      nomatch there
    · intro trailers he
      nomatch he

/-- Handing out an event that is no completion, or nothing. -/
theorem Concluding.give {next : Event Bytes} (ht : Concluding h t next)
    (incomplete : next.isComplete = false) (headers : Option Metadata)
    {pending : List (Event Bytes)} (caused : ∀ trailers, .complete none trailers ∉ pending)
    {given : List (Event β)} (unfinished : ∀ cause trailers, .complete cause trailers ∉ given) :
    Concluded h { t with headers, pending } given where
  hook := ht.hook
  caused := caused
  running _ := ht.incomplete incomplete
  unfinished _ := unfinished
  clean trailers there := absurd there (unfinished none trailers)

/-- Ending the stream: without a cause only if the hook said so. -/
theorem Concluding.finish {next : Event Bytes} (ht : Concluding h t next)
    (unfinished : ∀ cause trailers, .complete cause trailers ∉ read) {cause : Option Failure}
    {trailers : Metadata} (said : cause = none → next = .complete none trailers) :
    Concluded h (t.finish (α := β) cause trailers).2
      (read ++ [(t.finish (α := β) cause trailers).1]) := by
  refine ⟨ht.hook, fun _ there => (nomatch there), fun c => (nomatch c), fun c => (nomatch c),
    ?_⟩
  intro given there
  rcases List.mem_append.mp there with there | there
  · exact absurd there (unfinished none given)
  · cases cause with
    | some cause => cases List.mem_singleton.mp there
    | none =>
      cases List.mem_singleton.mp there
      exact ht.clean trailers (said rfl)

namespace Concluded

/-- A stream on which nothing waits to be received, when its log is begun. -/
theorem start {s : Stream σ} (nothing : s.pending = []) :
    Concluded s.hook (s.logged []) ([] : List (Event β)) where
  hook := rfl
  caused trailers there := by
    have there : .complete none trailers ∈ s.pending := there
    rw [nothing] at there
    nomatch there
  running _ _ there := nomatch there
  unfinished _ _ _ there := nomatch there
  clean _ there := nomatch there

variable [Message β]

/-- One turn ends a stream without a cause only if the hook did. -/
theorem turned {r : Turn β × Stream (σ × EventLog σ)} (hc : Concluded h s read)
    (ht : s.Turned r) : Concluded h r.2 (read ++ r.1.events) := by
  cases ht with
  | ended _ => simpa [Turn.events] using hc
  | waiting running hn =>
    rw [hn.eq_of_none]
    simpa [Turn.events] using hc
  | @skipped t headers running hn hh =>
    have next := hc.concluding running hn
    rw [show Turn.events (α := β) .skipped = [] from rfl, List.append_nil]
    exact next.give rfl t.headers next.caused (hc.unfinished running)
  | headers running hn hh =>
    have next := hc.concluding running hn
    refine next.give rfl _ next.caused ?_
    exact Event.unfinished_append (hc.unfinished running) rfl
  | supplied running hn hh =>
    have next := hc.concluding running hn
    refine next.give rfl _ ?_ (Event.unfinished_append (hc.unfinished running) rfl)
    intro trailers there
    rcases List.mem_cons.mp there with he | there
    · cases he
    · exact next.caused trailers there
  | @message t payload message running hn hh hd =>
    have next := hc.concluding running hn
    refine next.give rfl t.headers next.caused ?_
    exact Event.unfinished_append (hc.unfinished running) rfl
  | unreadable running hn hh hd =>
    refine (hc.concluding running hn).finish (hc.unfinished running) ?_
    intro he
    cases he
  | complete running hn =>
    refine (hc.concluding running hn).finish (hc.unfinished running) ?_
    intro he
    rw [he]

omit [Message β] in
theorem abortLater (hc : Concluded h s read) (a : Abort) : Concluded h (s.abortLater a).2 read :=
  ⟨hc.hook, fun _ there => (nomatch List.mem_singleton.mp there), hc.running, hc.unfinished,
    hc.clean⟩

omit [Message β] in
theorem resend (hc : Concluded h s read) (own : σ) (link : Link) (listening : Bool)
    (clock : Clock) :
    Concluded h { s with link, listening, clock, memory := (own, s.memory.2) } read :=
  ⟨hc.hook, hc.caused, hc.running, hc.unfinished, hc.clean⟩

omit [Message β] in
theorem sent (hc : Concluded h s read) (hs : s.Sent t) : Concluded h t read := by
  have noted := memory_message hc.hook
  cases hs with
  | refused => exact hc
  | asked body link _ =>
    rw [noted]
    exact hc.resend _ link s.listening s.clock
  | aborted body a _ =>
    rw [noted]
    exact (hc.resend (h.message s.memory.1 body).2 s.link s.listening s.clock).abortLater a

omit [Message β] in
theorem cancel (hc : Concluded h s read) : Concluded h s.cancel read := by
  unfold Stream.cancel
  by_cases ended : s.completed = true
  · rw [if_pos ended]
    exact hc
  · rw [if_neg ended]
    exact hc.abortLater .canceled

/-- No step makes a success of what the hook did not. -/
theorem invariant (h : StreamHook σ) : Invariant (Concluded (β := β) h) where
  turned := turned
  sent := sent
  cancel := cancel
  closeSend hc := ⟨hc.hook, hc.caused, hc.running, hc.unfinished, hc.clean⟩
  quiet hc listening link clock := hc.resend _ link listening clock

end Concluded

end Stream

/-! ## The end of a Connect stream -/

namespace Connect

/-- An event that says that a stream is whole: a frame with the flag of the last message, whose
payload is a last message without a failure. -/
def IsCleanEnd (m : StreamMemory) (e : Event Bytes) : Prop :=
  ∃ frame rest envelope last, e = .message frame ∧
    Envelope.unpack frame m.pool = (rest, .ok envelope) ∧
    envelope.has Envelope.endStreamFlag = true ∧
    EndOfStream.parse? envelope.payload = some last ∧ last.failure = none

variable {c : ClientConfig τ} {m : StreamMemory} {e : Event Bytes}

theorem protocolEvent_eq (family : c.family = .connect) (m : StreamMemory) (e : Event Bytes) :
    (protocolEvent c m e).1 = (streamEvent c m.pool e).1 := by
  unfold protocolEvent
  rw [family]

/-- A last frame that reports no failure ends the stream. -/
theorem isComplete_of_isCleanEnd (h : IsCleanEnd m e) :
    (streamEvent c m.pool e).1.isComplete = true := by
  obtain ⟨frame, rest, envelope, last, rfl, hu, hlast, hparse, -⟩ := h
  simp only [streamEvent, Protocol.takeFrame, hu]
  cases Protocol.connectStream.checkFrame envelope m.pool with
  | error cause => rfl
  | ok _ =>
    simp only [Except.map, hlast, hparse]
    rfl

/-- A clean completion is made of the transport's own or of a frame that says so. -/
theorem clean_streamEvent {trailers : Metadata}
    (h : (streamEvent c m.pool e).1 = .complete none trailers) :
    e = .complete none trailers ∨ IsCleanEnd m e := by
  cases e with
  | complete cause given => exact .inl h
  | headers headers =>
    simp only [streamEvent] at h
    split at h <;> cases h
  | message frame =>
    simp only [streamEvent] at h
    split at h
    · cases h
    · next rest envelope ht =>
      by_cases hlast : envelope.has Envelope.endStreamFlag = true
      · rw [if_pos hlast] at h
        cases hparse : EndOfStream.parse? envelope.payload with
        | none =>
          rw [hparse] at h
          cases h
        | some last =>
          rw [hparse] at h
          have clean : last.failure = none := (Event.complete.inj h).1
          exact .inr ⟨frame, rest, envelope, last, rfl, (unpack_of_takeFrame ht).1, hlast, hparse,
            clean⟩
      · rw [if_neg hlast] at h
        cases h

end Connect

/-! ## Sessions -/

variable {α β : Type} [Message α] [Message β]

/-- If a caller of a Connect stream is handed a completion without a cause, a frame has said that
the stream is whole exactly if the transport's own completion, without a cause, never reached the
hook. -/
theorem endOfStream_of_clean_complete {c : ClientConfig τ} (family : c.family = .connect)
    (e : Encoding) (m : StreamMemory) (link : Link) (deadline : Option Nanoseconds)
    (actions : List (Favour × Action α)) {seen : List (Observation β)}
    {t : Session StreamMemory}
    (run : (Session.start (.opened (protocolStream c) e m link deadline)).run β actions = (seen, t))
    {trailers : Metadata} (ended : .complete none trailers ∈ received seen) :
    ∃ log, ((Session.start (.opened (protocolStream c) e m link deadline)).logged []).run β
        actions = (seen, t.logged log) ∧
      ((∃ x ∈ log, Connect.IsCleanEnd x.1 x.2) ↔
        ∀ x ∈ log, ∀ given, x.2 ≠ .complete none given) := by
  obtain ⟨log, hlog⟩ := (Session.start (.opened (protocolStream c) e m link deadline)).run_logged
    (β := β) [] actions
  rw [run] at hlog
  refine ⟨log, hlog, ?_⟩
  have begun := Stream.Concluded.start (β := β)
    (s := .opened (protocolStream c) e m link deadline) rfl
  have kept := Session.run_keeps (Stream.Concluded.invariant (protocolStream c)) (.start begun)
    actions
  rw [Session.start_logged, hlog] at kept
  -- also of a stream that has been given up, of whose events the caller saw only the first ones
  obtain ⟨unseen, drained⟩ := kept.drained
  have last := drained.clean trailers (List.mem_append_left _ ended)
  obtain ⟨earlier, x, hx, made, incomplete⟩ := last
  rw [show (t.logged log).stream.memory.2 = log from rfl] at hx
  rw [show (protocolStream c).event x.1 x.2 = protocolEvent c x.1 x.2 from rfl,
    Connect.protocolEvent_eq family] at made
  -- only the last event of the log can have made a completion
  have only : ∀ y ∈ log, (Connect.streamEvent c y.1.pool y.2).1.isComplete = true → y = x := by
    intro y hy complete
    rw [hx, List.mem_append, List.mem_singleton] at hy
    rcases hy with hy | hy
    · have := incomplete y hy
      rw [show (protocolStream c).event y.1 y.2 = protocolEvent c y.1 y.2 from rfl,
        Connect.protocolEvent_eq family, complete] at this
      cases this
    · exact hy
  constructor
  · -- a frame that says so and a completion of the transport would both be that last event
    rintro ⟨y, hy, clean⟩ z hz given passed
    have hyx := only y hy (Connect.isComplete_of_isCleanEnd clean)
    have hzx := only z hz (by rw [passed]; rfl)
    obtain ⟨frame, -, -, -, framed, -⟩ := clean
    rw [hyx, ← hzx, passed] at framed
    cases framed
  · intro notPassed
    have hxlog : x ∈ log := by
      rw [hx]
      exact List.mem_append_right _ List.mem_cons_self
    exact ⟨x, hxlog, (Connect.clean_streamEvent made).resolve_left (notPassed x hxlog _)⟩

def connectStream : Stream StreamMemory :=
  .opened (protocolStream (ClientConfig.new (σ := Unit) "http://localhost")) .proto .fresh
    (.fresh 1) none

def connectHeaders : Metadata := .ofTexts [("content-type", "application/connect+proto")]

/-- The headers, one more event, and a caller who receives both. -/
def headersAnd (last : Event Bytes) : List (Favour × Action Note) :=
  [.deliver (.headers connectHeaders), .deliver last, .caller .receive, .caller .receive].map
    (⟨true, true⟩, ·)

/-- A last frame without a failure. -/
def cleanFrame : Event Bytes := .message (Envelope.frame Envelope.endStreamFlag [123, 125])

/-- A stream that ends as it should: with the last frame of its protocol. -/
theorem endOfStream_of_cleanFrame :
    .complete none .empty ∈
        received ((Session.start connectStream).run Note (headersAnd cleanFrame)).1 ∧
      ∃ x ∈ (((Session.start connectStream).logged []).run Note
        (headersAnd cleanFrame)).2.stream.memory.2, Connect.IsCleanEnd x.1 x.2 := by
  have all : received ((Session.start connectStream).run Note (headersAnd cleanFrame)).1 =
      [.headers connectHeaders, .complete none .empty] :=
    Session.run_of_within 1 _ _ (fun r => received r.1) (by decide +kernel)
  have given : (((Session.start connectStream).logged []).run Note
      (headersAnd cleanFrame)).2.stream.memory.2.map (·.2) =
        [.headers connectHeaders, cleanFrame] :=
    Session.run_of_within 1 ((Session.start connectStream).logged []) _
      (fun r => r.2.stream.memory.2.map (·.2)) (by decide +kernel)
  have ended : .complete none .empty ∈
      received ((Session.start connectStream).run Note (headersAnd cleanFrame)).1 := by
    rw [all]
    exact List.mem_cons_of_mem _ List.mem_cons_self
  obtain ⟨log, hlog, whole⟩ := endOfStream_of_clean_complete
    (c := ClientConfig.new (σ := Unit) "http://localhost") rfl .proto .fresh (.fresh 1) none
    (headersAnd cleanFrame) rfl ended
  have hlog : (((Session.start connectStream).logged []).run Note
      (headersAnd cleanFrame)).2.stream.memory.2 = log := by
    rw [show (Session.start connectStream).logged [] = _ from rfl, connectStream, hlog]
    rfl
  rw [hlog] at given ⊢
  refine ⟨ended, whole.mpr ?_⟩
  intro x hx trailers passed
  have there : x.2 ∈ [.headers connectHeaders, cleanFrame] := by
    rw [← given]
    exact List.mem_map_of_mem hx
  rw [passed] at there
  simp [cleanFrame] at there

/-- A body that ends after the headers, without a frame that says so: the transport's own
completion ends the stream as if it were whole. -/
theorem cutShort_clean :
    ¬ ∀ (actions : List (Favour × Action Note)) (trailers : Metadata),
      .complete none trailers ∈ received ((Session.start connectStream).run Note actions).1 →
        ∃ x ∈ (((Session.start connectStream).logged []).run Note actions).2.stream.memory.2,
          Connect.IsCleanEnd x.1 x.2 := by
  intro endsFramed
  have all : received ((Session.start connectStream).run Note
      (headersAnd (.complete none .empty))).1 =
        [.headers connectHeaders, .complete none .empty] :=
    Session.run_of_within 1 _ _ (fun r => received r.1) (by decide +kernel)
  have given : (((Session.start connectStream).logged []).run Note
      (headersAnd (.complete none .empty))).2.stream.memory.2.map (·.2) =
        [.headers connectHeaders, .complete none .empty] :=
    Session.run_of_within 1 ((Session.start connectStream).logged []) _
      (fun r => r.2.stream.memory.2.map (·.2)) (by decide +kernel)
  have ended : .complete none .empty ∈ received ((Session.start connectStream).run Note
      (headersAnd (.complete none .empty))).1 := by
    rw [all]
    exact List.mem_cons_of_mem _ List.mem_cons_self
  obtain ⟨x, hx, frame, -, -, -, framed, -⟩ := endsFramed _ .empty ended
  have there : x.2 ∈ [.headers connectHeaders, .complete none .empty] := by
    rw [← given]
    exact List.mem_map_of_mem hx
  rw [framed] at there
  simp at there

end RpcWire
