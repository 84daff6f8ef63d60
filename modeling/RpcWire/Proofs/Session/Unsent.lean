import RpcWire.Proofs.Session.Truncation

/-!
# A request that could not be sent

The one request of a stream of responses may have no octets, or the hook may
refuse them, as it does when a pool cannot compress them (`Stream.Unsendable`).
Then nothing is sent, and nothing is left to be received either
(`Stream.sendOnly_of_unsendable`).

So the stream goes on as if its caller had sent an empty body, and it ends as a
success exactly if the hook takes the server's answer to that for one
(`unsent_success_iff`). With a server that answers so, the caller never learns
that the request was not sent (`unsent_success`).
-/

namespace RpcWire

variable {σ : Type}

namespace Stream

variable {α : Type} [Message α] {s : Stream σ} {f : Favour} {message : α} {cause : Failure}

/-! ## Sending in vain -/

/-- A message that an open stream cannot send: it has no octets, or the hook refuses them. -/
structure Unsendable (s : Stream σ) (message : α) (cause : Failure) : Prop where
  sending : s.sending = true
  refused : s.encoding.encode message = .error cause ∨
    ∃ body, s.encoding.encode message = .ok body ∧ (s.hook.message s.memory body).1 = .error cause

/-- Of a message that cannot be sent nothing is left on the stream but what the hook remembers. -/
theorem sendOnly_of_unsendable (h : s.Unsendable message cause) (f : Favour) :
    (s.send f message).1 = .failed cause ∧
      ∃ own, s.sendOnly f message = { s with memory := own, sending := false } := by
  unfold sendOnly send
  rw [if_pos h.sending]
  rcases h.refused with encoded | ⟨body, encoded, refused⟩
  · rw [encoded]
    exact ⟨rfl, s.memory, rfl⟩
  · rw [encoded]
    simp only
    rcases hm : s.hook.message s.memory body with ⟨refusal | frame, own⟩
    · rw [hm] at refused
      cases refused
      exact ⟨rfl, own, rfl⟩
    · rw [hm] at refused
      cases refused

/-! ## Ends with a cause -/

/-- What `Concluded` says, and the other way round: where a stream ended with a cause, its hook made
no completion without one. -/
structure Decided {β : Type} (h : StreamHook σ) (s : Stream (σ × EventLog σ))
    (read : List (Event β)) : Prop extends Concluded h s read where
  failed : ∀ cause trailers, .complete (some cause) trailers ∈ read →
    ∀ given, ¬ LastClean h s.memory.2 given

namespace Decided

variable {β : Type} {h : StreamHook σ} {s t : Stream (σ × EventLog σ)} {read : List (Event β)}

theorem not_lastClean {log : EventLog σ}
    (incomplete : ∀ x ∈ log, (h.event x.1 x.2).1.isComplete = false) (given : Metadata) :
    ¬ LastClean h log given := by
  rintro ⟨earlier, x, rfl, made, -⟩
  have still := incomplete x (List.mem_append_right _ List.mem_cons_self)
  rw [made] at still
  cases still

/-- A completion with a cause that is about to be handed out is not made by the hook, or the hook
has given it the cause. -/
theorem not_lastClean_of_next (hc : Concluded h s read) (running : s.completed = false)
    {trailers : Metadata} (hn : s.Next (some (.complete (some cause) trailers), t))
    (given : Metadata) : ¬ LastClean h t.memory.2 given := by
  have none_made := hc.running running
  generalize hr : (some (Event.complete (some cause) trailers), t) = r at hn
  cases hn with
  | asleep => cases hr
  | pending =>
    cases hr
    exact not_lastClean none_made given
  | aborted =>
    cases hr
    exact not_lastClean none_made given
  | @arrived arrived link =>
    obtain ⟨made, rfl⟩ := Prod.mk.inj hr
    have made := Option.some.inj made
    rw [hc.hook, h.event_logged] at made ⊢
    rintro ⟨earlier, x, noted, clean, -⟩
    -- the last entry of the log is the event that has just arrived
    obtain ⟨-, last⟩ := List.append_inj' noted rfl
    cases last
    rw [clean] at made
    cases made

/-- As long as the stream is not over, nothing has ended with a cause. -/
theorem of_running (hc : Concluded h s read) (running : s.completed = false) :
    Decided h s read where
  toConcluded := hc
  failed cause trailers there := absurd there (hc.unfinished running (some cause) trailers)

/-- A stream that is ending now. -/
theorem of_finish {cause : Option Failure} {trailers : Metadata}
    (hc : Concluded h (t.finish (α := β) cause trailers).2
      (read ++ [(t.finish (α := β) cause trailers).1]))
    (unfinished : ∀ cause trailers, .complete cause trailers ∉ read)
    (caused : cause ≠ none → ∀ given, ¬ LastClean h t.memory.2 given) :
    Decided h (t.finish (α := β) cause trailers).2
      (read ++ [(t.finish (α := β) cause trailers).1]) where
  toConcluded := hc
  failed := by
    intro reported given there
    rcases List.mem_append.mp there with there | there
    · exact absurd there (unfinished _ _)
    · cases cause with
      | none => cases List.mem_singleton.mp there
      | some cause => exact caused (fun none => nomatch none)

variable [Message β]

/-- One turn hands out a cause only where the hook made no success of the last event. -/
theorem turned {r : Turn β × Stream (σ × EventLog σ)} (hd : Decided h s read)
    (ht : s.Turned r) : Decided h r.2 (read ++ r.1.events) := by
  have concluded := hd.toConcluded.turned ht
  cases ht with
  | ended _ => simpa [Turn.events] using hd
  | waiting running hn => exact of_running concluded (hn.unchanged.1.trans running)
  | skipped running hn _ => exact of_running concluded (hn.unchanged.1.trans running)
  | headers running hn _ => exact of_running concluded (hn.unchanged.1.trans running)
  | supplied running hn _ => exact of_running concluded (hn.unchanged.1.trans running)
  | message running hn _ _ => exact of_running concluded (hn.unchanged.1.trans running)
  | unreadable running hn _ _ =>
    -- the hook made a message of the last event, which the caller could not read
    have last := hd.toConcluded.concluding running hn
    exact of_finish concluded (hd.unfinished running) fun _ => not_lastClean (last.incomplete rfl)
  | @complete t cause trailers running hn =>
    refine of_finish concluded (hd.unfinished running) ?_
    intro caused
    cases cause with
    | none => exact absurd rfl caused
    | some cause => exact not_lastClean_of_next hd.toConcluded running hn

omit [Message β] in
/-- What changes neither the log nor what has been handed out decides nothing. -/
theorem transfer (hd : Decided h s read) (hc : Concluded h t read)
    (log : t.memory.2 = s.memory.2) : Decided h t read where
  toConcluded := hc
  failed := by
    rw [log]
    exact hd.failed

omit [Message β] in
theorem sent (hd : Decided h s read) (hs : s.Sent t) : Decided h t read := by
  refine hd.transfer (hd.toConcluded.sent hs) ?_
  have noted := memory_message hd.hook
  cases hs with
  | refused => rfl
  | asked body link _ => rw [noted]
  | aborted body a _ =>
    rw [noted]
    rfl

omit [Message β] in
theorem cancel (hd : Decided h s read) : Decided h s.cancel read := by
  refine hd.transfer hd.toConcluded.cancel ?_
  unfold Stream.cancel
  by_cases ended : s.completed = true
  · rw [if_pos ended]
  · rw [if_neg ended]
    rfl

/-- No step makes a failure of a stream that its hook ended as a success. -/
theorem invariant (h : StreamHook σ) : Invariant (Decided (β := β) h) where
  turned := turned
  sent := sent
  cancel := cancel
  closeSend hd := hd.transfer ((Concluded.invariant h).closeSend hd.toConcluded) rfl
  quiet hd listening link clock :=
    hd.transfer ((Concluded.invariant h).quiet hd.toConcluded listening link clock) rfl

end Decided

end Stream

variable {α β : Type} [Message α] [Message β]

/-- A stream ends without a cause exactly if its hook made such an end of the last event that it was
given. -/
theorem Session.clean_iff_lastClean {s : Stream σ} (nothing : s.pending = [])
    (running : s.completed = false) (actions : List (Favour × Action α))
    {seen : List (Observation β)} {t : Session σ}
    (run : (Session.start s).run β actions = (seen, t)) :
    ∃ log, ((Session.start s).logged []).run β actions = (seen, t.logged log) ∧
      ∀ cause trailers, .complete cause trailers ∈ received seen →
        (cause = none ↔ Stream.LastClean s.hook log trailers) := by
  obtain ⟨log, hlog⟩ := (Session.start s).run_logged (β := β) [] actions
  rw [run] at hlog
  refine ⟨log, hlog, ?_⟩
  have begun := Stream.Concluded.start (β := β) nothing
  have kept := Session.run_keeps (Stream.Decided.invariant s.hook)
    (.start (Stream.Decided.of_running begun running)) actions
  rw [Session.start_logged, hlog] at kept
  -- also of a stream that has been given up, of whose events the caller saw only the first ones
  obtain ⟨unseen, decided⟩ := kept.drained
  intro cause trailers handed
  have there := List.mem_append_left unseen handed
  constructor
  · rintro rfl
    exact decided.clean trailers there
  · intro clean
    cases cause with
    | none => rfl
    | some cause => exact absurd clean (decided.failed cause trailers there trailers)

/-! ## Streams of responses -/

/-- A stream is opened, or its failure is left to be received. -/
theorem ClientConfig.openStream_cases (c : ClientConfig σ) (memory : σ) (callee : Method)
    (o : CallOptions) (transport : Http.Request → Except Failure Link) :
    (∃ m cause, (c.openStream memory callee o transport).stream = .failed c.encoding m cause) ∨
      ∃ m link, (c.openStream memory callee o transport).stream =
        .opened c.streamHook c.encoding m link (c.baseRequest callee o).timeout := by
  unfold openStream
  simp only
  rcases c.streamHook.request (memory, .fresh) (c.baseRequest callee o) with ⟨cause | request, m⟩
  · exact .inl ⟨m, cause, rfl⟩
  · simp only
    cases transport request with
    | error cause => exact .inl ⟨m, cause, rfl⟩
    | ok link => exact .inr ⟨m, link, rfl⟩

/-- A request that cannot be sent leaves its stream as it was opened, closed for sending: whatever
the failure, nothing is sent and nothing is left to be received. So the completion that the caller
is handed has no cause exactly if the hook made one without a cause of the last event that the
transport delivered. -/
theorem unsent_success_iff (c : ClientConfig σ) (memory : σ) (callee : Method) (o : CallOptions)
    (transport : Http.Request → Except Failure Link) (f : Favour) (message : α)
    {s : Stream (σ × StreamMemory)} (opening : (c.openStream memory callee o transport).stream = s)
    {cause : Failure} (unsendable : s.Unsendable message cause)
    (actions : List (Favour × Action α)) {seen : List (Observation β)}
    {t : Session (σ × StreamMemory)}
    (run : (Session.start (s.sendOnly f message)).run β actions = (seen, t)) :
    (s.send f message).1 = .failed cause ∧
    (∃ own, s.sendOnly f message = { s with memory := own, sending := false } ∧ s.pending = []) ∧
    ∃ log, ((Session.start (s.sendOnly f message)).logged []).run β actions = (seen, t.logged log) ∧
      ∀ ended trailers, .complete ended trailers ∈ received seen →
        (ended = none ↔ Stream.LastClean c.streamHook log trailers) := by
  obtain ⟨failed, own, left⟩ := Stream.sendOnly_of_unsendable unsendable f
  -- nothing can be sent on a stream that could not be opened
  have opened : s.hook = c.streamHook ∧ s.pending = [] ∧ s.completed = false := by
    have sending := unsendable.sending
    rcases c.openStream_cases memory callee o transport with ⟨m, cause, h⟩ | ⟨m, link, h⟩
    · rw [opening] at h
      rw [h] at sending
      cases sending
    · rw [opening] at h
      rw [h]
      exact ⟨rfl, rfl, rfl⟩
  obtain ⟨hook, nothing, running⟩ := opened
  refine ⟨failed, ⟨own, left, nothing⟩, ?_⟩
  rw [left] at run ⊢
  rw [← hook]
  exact Session.clean_iff_lastClean (s := { s with memory := own, sending := false }) nothing
    running actions run

/-- A client of Connect that compresses every request with a pool that never succeeds. -/
def choking : ClientConfig Unit :=
  (ClientConfig.new "http://h").withCompression ⟨0, .failing "broken"⟩

/-- Its call of a method with a stream of responses. -/
def chokingStream : Stream (Unit × StreamMemory) :=
  (choking.openStream () (.of "pkg.Svc/Go" .serverStream .unknown) .empty
    fun _ => .ok (.fresh 1)).stream

def unsentNote : Note := ⟨"req", 1, []⟩

/-- The pool refuses the octets of the note. -/
theorem unsendable_unsentNote : chokingStream.Unsendable unsentNote
    (.ofFrame (.compression "no space")) where
  sending := rfl
  refused := .inr ⟨unsentNote.toProto, rfl, rfl⟩

/-- The call, answered by headers and a last frame without a failure. -/
def chokingRun : List (Observation Note) × Session (Unit × StreamMemory) :=
  (Session.start (chokingStream.sendOnly ⟨true, true⟩ unsentNote)).run Note (headersAnd cleanFrame)

/-- All the same the stream ends as a success. -/
theorem received_chokingRun :
    received chokingRun.1 = [.headers connectHeaders, .complete none .empty] :=
  Session.run_of_within 1 _ _ (fun r => received r.1) (by decide +kernel)

/-- A failed send, and a success that is received after it. -/
theorem unsent_success_iff_cleanFrame :
    (chokingStream.send ⟨true, true⟩ unsentNote).1 = .failed (.ofFrame (.compression "no space")) ∧
      .complete none .empty ∈ received chokingRun.1 ∧
      ∃ log, Stream.LastClean choking.streamHook log .empty := by
  have split : (Session.start (chokingStream.sendOnly ⟨true, true⟩ unsentNote)).run Note
      (headersAnd cleanFrame) = (chokingRun.1, chokingRun.2) := rfl
  obtain ⟨failed, -, log, -, ends⟩ := unsent_success_iff choking () (.of "pkg.Svc/Go" .serverStream
    .unknown) .empty (fun _ => .ok (.fresh 1)) ⟨true, true⟩ unsentNote
    (show _ = chokingStream from rfl) unsendable_unsentNote (headersAnd cleanFrame) split
  have ended : .complete none .empty ∈ received chokingRun.1 := by
    rw [received_chokingRun]
    exact List.mem_cons_of_mem _ List.mem_cons_self
  exact ⟨failed, ended, log, (ends none .empty ended).mp rfl⟩

/-- A server that answers an empty body with an empty stream: the call is a success although its
request could not be compressed. -/
theorem unsent_success :
    ¬ ∀ cause : Failure, chokingStream.Unsendable unsentNote cause →
      ∀ (actions : List (Favour × Action Note)) (trailers : Metadata),
        .complete none trailers ∉ received
          ((Session.start (chokingStream.sendOnly ⟨true, true⟩ unsentNote)).run Note
            actions).1 := by
  intro neverClean
  refine neverClean _ unsendable_unsentNote (headersAnd cleanFrame) .empty ?_
  show .complete none .empty ∈ received chokingRun.1
  rw [received_chokingRun]
  exact List.mem_cons_of_mem _ List.mem_cons_self

end RpcWire
