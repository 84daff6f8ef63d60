import RpcWire.Proofs.RoundTrip.Request
import RpcWire.Proofs.Session.Abort
import RpcWire.Proofs.Session.Received

/-!
# Which end a call comes to

A call leaves the pending phase once and stays where it went
(`Session.phase_settled`). Whatever order a deadline, a cancellation, the
caller's operations and the transport come in, a completion tells which of them
was first: the deadline, the caller, or what the hook and the encoding made of
the transport's events (`Outcome`). The first two never look like each other,
and nothing that the server reports is turned into either.

* `Stream.Settling`: what a stream and its log say of the end to come, which no
  step breaks (`Settling.invariant`);
* `outcome_callUnary`: the end of every unary call;
* `outcome_of_complete`: the end of every stream.
-/

namespace RpcWire

variable {σ : Type}

/-! ## Phases -/

namespace Phase

/-- A call that completes reports every failure as it is. -/
theorem resolve_completed (f : Failure) : completed.resolve f = f :=
  resolve_of_not_aborted (by decide) f

/-- The failure of an abort is reported as it is. -/
theorem resolve_abortFailure (p : Phase) : p.resolve p.abortFailure = p.abortFailure := by
  cases p <;> rfl

/-- An abort of a call that is not complete leaves it aborted. -/
theorem isAborted_abort_of_ne {p : Phase} (h : p ≠ .completed) (a : Abort) :
    (p.abort a).isAborted := by
  cases p with
  | pending => exact isAborted_abort a
  | timedOut => exact .inl rfl
  | canceled => exact .inr rfl
  | completed => exact absurd rfl h

theorem ne_pending_of_isAborted {p : Phase} (h : p.isAborted) : p ≠ .pending := by
  rintro rfl
  rcases h with h | h <;> cases h

end Phase

namespace Stream

/-- No step moves a call that has left the pending phase. -/
theorem settled_invariant {β : Type} [Message β] {p : Phase} (settled : p ≠ .pending) :
    Invariant fun (s : Stream σ) (_ : List (Event β)) => s.phase = p := by
  have stays : ∀ next, p.advance next = p := fun _ => Phase.advance_of_ne settled
  apply Invariant.of_alone
  · intro s h _ _ _ _ _ _
    exact h
  · intro s h a
    exact h ▸ stays _
  · intro _ s h _ _
    exact h ▸ stays _
  · intro s h
    exact h

end Stream

/-- What a session does after its call has left the pending phase leaves the phase as it is. -/
theorem Session.phase_settled {α : Type} (β : Type) [Message α] [Message β] {s : Session σ}
    (settled : s.stream.phase ≠ .pending) (actions : List (Favour × Action α)) :
    (s.run β actions).2.stream.phase = s.stream.phase :=
  run_keeps_stream (Stream.settled_invariant settled) rfl actions

/-! ## Ends -/

/-- The ends that a call can come to: its phase, the cause and the trailers of its completion, and
the log of what the hook was given. -/
inductive Outcome (β : Type) [Message β] (h : StreamHook σ) (e : Encoding) (log : EventLog σ) :
    Phase → Option Failure → Metadata → Prop
  | timedOut {cause trailers} : cause.code = .deadlineExceeded →
      Outcome β h e log .timedOut (some cause) trailers
  | canceled {cause trailers} : cause.code = .canceled →
      Outcome β h e log .canceled (some cause) trailers
  /-- The hook made the completion of the last event. -/
  | told {earlier x cause trailers} : log = earlier ++ [x] →
      (h.event x.1 x.2).1 = .complete cause trailers → Outcome β h e log .completed cause trailers
  /-- The hook made a payload of the last event, and the payload is no message. -/
  | unreadable {earlier x payload cause} : log = earlier ++ [x] →
      (h.event x.1 x.2).1 = .message payload → e.decode (α := β) payload = .error cause →
      Outcome β h e log .completed (some cause) .empty

namespace Stream

/-- What is pending on a stream that is not over: nothing or what the hook made of the last event of
the log, and of an aborted call the failure of the abort. -/
inductive Waiting (h : StreamHook σ) (log : EventLog σ) : Phase → List (Event Bytes) → Prop
  | nothing : Waiting h log .pending []
  | made {earlier x} : log = earlier ++ [x] → Waiting h log .pending [(h.event x.1 x.2).1]
  | aborted {p : Phase} : p.isAborted → Waiting h log p [.fail p.abortFailure]

/-- What the state of a stream that keeps a log says of its end. -/
structure Settling {β : Type} [Message β] (h : StreamHook σ) (e : Encoding)
    (s : Stream (σ × EventLog σ)) (read : List (Event β)) : Prop where
  hook : s.hook = h.logged
  encoding : s.encoding = e
  running : s.completed = false → Waiting h s.memory.2 s.phase s.pending
  unfinished : s.completed = false → ∀ cause trailers, .complete cause trailers ∉ read
  settled : s.completed = true → s.phase ≠ .pending
  ended : ∀ cause trailers, .complete cause trailers ∈ read →
    Outcome β h e s.memory.2 s.phase cause trailers

/-- The same while the next event has been looked up and not yet handed out. -/
structure Handing (h : StreamHook σ) (e : Encoding) (t : Stream (σ × EventLog σ))
    (next : Event Bytes) : Prop where
  hook : t.hook = h.logged
  encoding : t.encoding = e
  running : t.completed = false
  empty : t.pending = []
  next : Waiting h t.memory.2 t.phase [next]

variable {h : StreamHook σ} {e : Encoding} {s t : Stream (σ × EventLog σ)} {next : Event Bytes}
  {log : EventLog σ} {p : Phase} {pending : List (Event Bytes)}

/-- A stream on which something is still waited for has not completed. -/
theorem Waiting.ne_completed (hw : Waiting h log p pending) : p ≠ .completed := by
  rintro rfl
  cases hw with
  | aborted na => rcases na with na | na <;> cases na

/-- At most one event is pending. -/
theorem Waiting.only {rest : List (Event Bytes)} (hw : Waiting h log p (next :: rest)) :
    rest = [] := by
  generalize hp : next :: rest = pending at hw
  cases hw <;> cases hp <;> rfl

/-- Something is pending on a stream whose call has been aborted. -/
theorem Waiting.eq_pending (hw : Waiting h log p []) : p = .pending := by
  generalize hp : ([] : List (Event Bytes)) = pending at hw
  cases hw with
  | nothing => rfl
  | made _ => cases hp
  | aborted _ => cases hp

/-- An event that is no completion is not the failure of an abort. -/
theorem Waiting.incomplete (hw : Waiting h log p [next]) (hne : next.isComplete = false) :
    p = .pending ∧ ∃ earlier x, log = earlier ++ [x] ∧ (h.event x.1 x.2).1 = next := by
  generalize hp : [next] = pending at hw
  cases hw with
  | nothing => cases hp
  | made hlog =>
    cases hp
    exact ⟨rfl, _, _, hlog, rfl⟩
  | aborted _ =>
    cases hp
    cases hne

/-- The end that a completion makes of a call. -/
theorem Waiting.outcome {β : Type} [Message β] {cause : Option Failure} {trailers : Metadata}
    (hw : Waiting h log p [.complete cause trailers]) :
    Outcome β h e log (p.advance .completed) (cause.map (p.advance .completed).resolve)
      trailers := by
  generalize hp : [Event.complete cause trailers] = pending at hw
  cases hw with
  | nothing => cases hp
  | made hlog =>
    obtain ⟨made, -⟩ := List.cons.inj hp
    show Outcome β h e log .completed (cause.map Phase.completed.resolve) trailers
    rw [funext Phase.resolve_completed, Option.map_id']
    exact .told hlog made.symm
  | aborted na =>
    cases hp
    rw [Phase.advance_of_ne (Phase.ne_pending_of_isAborted na), Option.map_some,
      Phase.resolve_abortFailure]
    rcases na with rfl | rfl
    · exact .timedOut rfl
    · exact .canceled rfl

/-- The end that a payload makes of a call if it is no message. -/
theorem Waiting.unreadable {β : Type} [Message β] {payload : Bytes} {cause : Failure}
    (hw : Waiting h log p [.message payload]) (hd : e.decode (α := β) payload = .error cause) :
    Outcome β h e log (p.advance .completed) (some ((p.advance .completed).resolve cause))
      .empty := by
  obtain ⟨rfl, earlier, x, hlog, made⟩ := hw.incomplete rfl
  show Outcome β h e log .completed (some (Phase.completed.resolve cause)) .empty
  rw [Phase.resolve_completed]
  exact .unreadable hlog made hd

variable {β : Type} [Message β] {read : List (Event β)}

/-- The next event of a stream that is not over is the last that its hook made, or the failure of
the abort. -/
theorem Settling.handing (hs : Settling h e s read) (running : s.completed = false)
    (hn : s.Next (some next, t)) : Handing h e t next := by
  have waiting := hs.running running
  generalize hr : (some next, t) = r at hn
  cases hn with
  | asleep _ _ => cases hr
  | @pending first rest hp =>
    cases hr
    rw [hp] at waiting
    have only := waiting.only
    rw [only] at waiting
    exact ⟨hs.hook, hs.encoding, running, only, waiting⟩
  | @arrived arrived link hp _ =>
    cases hr
    -- nothing was pending, so the call was not aborted, and the event is the last of the log
    rw [hp] at waiting
    have pending := waiting.eq_pending
    refine ⟨hs.hook, hs.encoding, running, hp, ?_⟩
    show Waiting h (s.hook.event s.memory arrived).2.2 s.phase [(s.hook.event s.memory arrived).1]
    rw [pending, hs.hook, h.event_logged]
    exact .made rfl
  | aborted a _ =>
    cases hr
    exact ⟨hs.hook, hs.encoding, running, rfl,
      .aborted (Phase.isAborted_abort_of_ne waiting.ne_completed a)⟩

/-- Handing out an event that is no completion, or nothing. -/
theorem Handing.give (ht : Handing h e t next) (incomplete : next.isComplete = false)
    (headers : Option Metadata)
    (unfinished : ∀ cause trailers, .complete cause trailers ∉ read) :
    Settling h e { t with headers } read where
  hook := ht.hook
  encoding := ht.encoding
  running _ := by
    show Waiting h t.memory.2 t.phase t.pending
    rw [ht.empty, (ht.next.incomplete incomplete).1]
    exact .nothing
  unfinished _ := unfinished
  settled finished := by
    have finished : t.completed = true := finished
    simp [ht.running] at finished
  ended cause trailers there := absurd there (unfinished cause trailers)

/-- The message is put back when headers are supplied for it. -/
theorem Handing.supplied (ht : Handing h e t next) (headers : Option Metadata)
    (unfinished : ∀ cause trailers, .complete cause trailers ∉ read) :
    Settling h e { t with headers, pending := next :: t.pending } read where
  hook := ht.hook
  encoding := ht.encoding
  running _ := by
    show Waiting h t.memory.2 t.phase (next :: t.pending)
    rw [ht.empty]
    exact ht.next
  unfinished _ := unfinished
  settled finished := by
    have finished : t.completed = true := finished
    simp [ht.running] at finished
  ended cause trailers there := absurd there (unfinished cause trailers)

/-- Ending the stream. -/
theorem Handing.finish (ht : Handing h e t next)
    (unfinished : ∀ cause trailers, .complete cause trailers ∉ read) {cause : Option Failure}
    {trailers : Metadata}
    (outcome : Outcome β h e t.memory.2 (t.phase.advance .completed)
      (cause.map (t.phase.advance .completed).resolve) trailers) :
    Settling h e (t.finish (α := β) cause trailers).2
      (read ++ [(t.finish (α := β) cause trailers).1]) where
  hook := ht.hook
  encoding := ht.encoding
  running finished := nomatch finished
  unfinished finished := nomatch finished
  settled _ := by
    show t.phase.advance .completed ≠ .pending
    cases t.phase <;> decide
  ended given last there := by
    rcases List.mem_append.mp there with there | there
    · exact absurd there (unfinished given last)
    · cases List.mem_singleton.mp there
      exact outcome

namespace Settling

/-- A stream that has just been opened, when its log is begun. -/
theorem start {s : Stream σ} (nothing : s.pending = []) (pending : s.phase = .pending)
    (running : s.completed = false) :
    Settling s.hook s.encoding (s.logged []) ([] : List (Event β)) where
  hook := rfl
  encoding := rfl
  running _ := by
    show Waiting s.hook [] s.phase s.pending
    rw [nothing, pending]
    exact .nothing
  unfinished _ _ _ there := nomatch there
  settled finished := by
    have finished : s.completed = true := finished
    simp [running] at finished
  ended _ _ there := nomatch there

/-- One turn of receiving settles a call only by what it hands out. -/
theorem turned {r : Turn β × Stream (σ × EventLog σ)} (hs : Settling h e s read)
    (ht : s.Turned r) : Settling h e r.2 (read ++ r.1.events) := by
  cases ht with
  | ended _ => simpa [Turn.events] using hs
  | waiting running hn =>
    rw [hn.eq_of_none]
    simpa [Turn.events] using hs
  | @skipped t headers running hn _ =>
    rw [show Turn.events (α := β) .skipped = [] from rfl, List.append_nil]
    exact (hs.handing running hn).give rfl t.headers (hs.unfinished running)
  | headers running hn _ =>
    refine (hs.handing running hn).give rfl _ ?_
    exact Event.unfinished_append (hs.unfinished running) rfl
  | supplied running hn _ =>
    refine (hs.handing running hn).supplied _ ?_
    exact Event.unfinished_append (hs.unfinished running) rfl
  | @message t payload message running hn _ _ =>
    refine (hs.handing running hn).give rfl t.headers ?_
    exact Event.unfinished_append (hs.unfinished running) rfl
  | unreadable running hn _ hd =>
    have ht := hs.handing running hn
    rw [ht.encoding] at hd
    exact ht.finish (hs.unfinished running) (ht.next.unreadable hd)
  | complete running hn =>
    have ht := hs.handing running hn
    exact ht.finish (hs.unfinished running) ht.next.outcome

/-- An abort settles a call that is still running, and changes nothing of one that is over. -/
theorem abortLater (hs : Settling h e s read) (a : Abort) :
    Settling h e (s.abortLater a).2 read where
  hook := hs.hook
  encoding := hs.encoding
  running finished := .aborted (Phase.isAborted_abort_of_ne (hs.running finished).ne_completed a)
  unfinished := hs.unfinished
  settled finished := by
    show s.phase.advance _ ≠ .pending
    rw [Phase.advance_of_ne (hs.settled finished)]
    exact hs.settled finished
  ended cause trailers there := by
    have finished : s.completed = true := by
      cases hc : s.completed with
      | true => rfl
      | false => exact absurd there (hs.unfinished hc cause trailers)
    show Outcome β h e s.memory.2 (s.phase.advance _) cause trailers
    rw [Phase.advance_of_ne (hs.settled finished)]
    exact hs.ended cause trailers there

theorem resend (hs : Settling h e s read) (own : σ) (link : Link) (listening sending : Bool)
    (clock : Clock) :
    Settling h e { s with link, listening, sending, clock, memory := (own, s.memory.2) } read :=
  ⟨hs.hook, hs.encoding, hs.running, hs.unfinished, hs.settled, hs.ended⟩

/-- Sending settles a call only by an abort that it notices. -/
theorem sent (hs : Settling h e s read) (ht : s.Sent t) : Settling h e t read := by
  have noted := memory_message hs.hook
  cases ht with
  | refused => exact hs
  | asked body link _ =>
    rw [noted]
    exact hs.resend _ link s.listening s.sending s.clock
  | aborted body a _ =>
    rw [noted]
    have asked := hs.resend (h.message s.memory.1 body).2 s.link s.listening s.sending s.clock
    exact asked.abortLater a

theorem cancel (hs : Settling h e s read) : Settling h e s.cancel read := by
  unfold Stream.cancel
  by_cases finished : s.completed = true
  · rw [if_pos finished]
    exact hs
  · rw [if_neg finished]
    exact hs.abortLater .canceled

/-- No step of a stream breaks what its log says of the end. -/
theorem invariant (h : StreamHook σ) (e : Encoding) : Invariant (Settling (β := β) h e) where
  turned := turned
  sent := sent
  cancel := cancel
  closeSend hs := hs.resend _ _ _ false _
  quiet hs listening link clock := hs.resend _ link listening _ clock

end Settling

end Stream

/-! ## Unary calls -/

/-- Without interceptors a response is what the protocol makes of it. -/
theorem response_unaryHook {c : ClientConfig σ} (direct : c.interceptors = []) (s : σ)
    (r : Http.Response) : c.unaryHook.response s r = (protocolUnary c).response s r := by
  unfold ClientConfig.unaryHook
  rw [direct]
  rfl

/-- No protocol touches a response that never arrived. -/
theorem response_protocolUnary_failed (c : ClientConfig σ) (s : σ) (cause : Failure) :
    (protocolUnary c).response s (.failed cause) = (.failed cause, s) := by
  unfold protocolUnary
  cases c.family <;> rfl

/-- The ends that a unary call can come to, with a request that the protocol prepares and a
transport that answers or is cut short. What the protocol makes of an answer is reported as it is.
-/
inductive UnaryOutcome (c : ClientConfig σ) (memory : σ) (base : Http.Request)
    (transport : Http.Request → Wait) : UnaryCall σ → Prop
  | rejected {u cause} : ((protocolUnary c).request memory base).1 = .error cause →
      u.sent = none → u.phase = .completed → u.response = .failed cause →
      UnaryOutcome c memory base transport u
  | timedOut {u request cause} : u.sent = some request →
      transport request = .aborted .timedOut → u.phase = .timedOut →
      u.response.cause = some cause → cause.code = .deadlineExceeded →
      UnaryOutcome c memory base transport u
  | canceled {u request cause} : u.sent = some request →
      transport request = .aborted .canceled → u.phase = .canceled →
      u.response.cause = some cause → cause.code = .canceled →
      UnaryOutcome c memory base transport u
  | told {u request answer} : u.sent = some request →
      transport request = .answered answer → u.phase = .completed →
      u.response = ((protocolUnary c).response memory answer).1 →
      UnaryOutcome c memory base transport u

/-- The end of a unary call is told by what became of its request: whether the protocol rejected it,
an abort cut it short, or it was answered. -/
theorem outcome_callUnary {c : ClientConfig σ} (direct : c.interceptors = []) (memory : σ)
    (callee : Method) (body : Bytes) (o : CallOptions) (transport : Http.Request → Wait) :
    UnaryOutcome c memory { c.baseRequest callee o with body } transport
      (c.callUnary memory callee body o transport) := by
  have kept :
      ((protocolUnary c).request memory { c.baseRequest callee o with body }).2 = memory := by
    rw [request_protocolUnary]
  unfold ClientConfig.callUnary
  rw [request_unaryHook direct]
  rcases hr : (protocolUnary c).request memory { c.baseRequest callee o with body } with
    ⟨cause | request, own⟩
  · exact .rejected (by rw [hr]) rfl rfl rfl
  · rw [hr] at kept
    obtain rfl : memory = own := kept.symm
    simp only [response_unaryHook direct]
    cases hw : transport request with
    | answered answer =>
      refine .told rfl hw rfl ?_
      show ((protocolUnary c).response memory answer).1.resolved .completed = _
      unfold Http.Response.resolved
      rw [funext Phase.resolve_completed, Option.map_id']
    | aborted a =>
      rw [show (Wait.aborted a).response = .failed (Phase.pending.abort a).abortFailure from rfl,
        response_protocolUnary_failed]
      cases a with
      | timedOut => exact .timedOut rfl hw rfl rfl rfl
      | canceled => exact .canceled rfl hw rfl rfl rfl

/-! ## Streams -/

variable {τ α β : Type} [Message α] [Message β]

/-- **One end for every call.** A stream that was opened leaves the pending phase once, for an abort
only if there is a reason for it, and its completion fits the phase that it went to: the deadline,
the caller, or the hook and the encoding, if nothing ever aborted the call. A unary call comes to
the same three ends (`outcome_callUnary`). -/
theorem outcome_of_complete (hook : StreamHook σ) (e : Encoding) (memory : σ) (link : Link)
    (deadline : Option Nanoseconds) (actions : List (Favour × Action α))
    {seen : List (Observation β)} {t : Session σ}
    (run : (Session.start (.opened hook e memory link deadline)).run β actions = (seen, t)) :
    (∀ earlier later, actions = earlier ++ later →
      ∀ {p}, ((Session.start (.opened hook e memory link deadline)).run β
          earlier).2.stream.phase = p → p ≠ .pending → t.stream.phase = p) ∧
    t.stream.Explained (∃ f, (f, .caller .cancel) ∈ actions) ∧
    (∃ log, ((Session.start (.opened hook e memory link deadline)).logged []).run β actions =
        (seen, t.logged log) ∧
      ∀ cause trailers, .complete cause trailers ∈ received seen →
        Outcome β hook e log t.stream.phase cause trailers ∧
        (t.stream.phase = .completed → ∀ earlier later, actions = earlier ++ later →
          ¬ ((Session.start (.opened hook e memory link deadline)).run β
            earlier).2.stream.phase.isAborted)) ∧
    ∀ (c : ClientConfig τ), c.interceptors = [] →
      ∀ own callee body o (transport : Http.Request → Wait),
        UnaryOutcome c own { c.baseRequest callee o with body } transport
          (c.callUnary own callee body o transport) := by
  have permanent : ∀ earlier later, actions = earlier ++ later →
      ∀ {p}, ((Session.start (.opened hook e memory link deadline)).run β
          earlier).2.stream.phase = p → p ≠ .pending → t.stream.phase = p := by
    rintro earlier later rfl p hp settled
    rw [Session.run_append] at run
    obtain ⟨-, rfl⟩ := Prod.mk.inj run
    rw [Session.phase_settled β (by rw [hp]; exact settled)]
    exact hp
  have explained : t.stream.Explained (∃ f, (f, .caller .cancel) ∈ actions) := by
    have kept :
        ((Session.start (.opened hook e memory link deadline)).run β actions).2.stream.Explained
          (∃ f, (f, .caller .cancel) ∈ actions) := Session.run_explained (.of_pending rfl) id
    rwa [run] at kept
  refine ⟨permanent, explained, ?_, ?_⟩
  · obtain ⟨log, hlog⟩ := (Session.start (.opened hook e memory link deadline)).run_logged
      (β := β) [] actions
    rw [run] at hlog
    refine ⟨log, hlog, ?_⟩
    have begun :=
      Stream.Settling.start (β := β) (s := .opened hook e memory link deadline) rfl rfl rfl
    have kept := Session.run_keeps (Stream.Settling.invariant hook e) (.start begun) actions
    rw [Session.start_logged, hlog] at kept
    -- also of a stream that has been given up, of whose events the caller saw only the first ones
    obtain ⟨unseen, drained⟩ := kept.drained
    intro cause trailers ended
    refine ⟨drained.ended cause trailers (List.mem_append_left _ ended), ?_⟩
    intro completed earlier later split aborted
    have same := permanent earlier later split rfl (Phase.ne_pending_of_isAborted aborted)
    rw [← same, completed] at aborted
    rcases aborted with aborted | aborted <;> cases aborted
  · intro c direct own callee body o transport
    exact outcome_callUnary direct own callee body o transport

def timedStream : Stream Unit := .opened .idle .proto () (.fresh 1) (some 5)

/-- The deadline passes and is noticed while sending; then the caller cancels, and receives. -/
def lateCancel : List (Favour × Action Note) :=
  [.advance 9, .caller (.send ⟨"A", 0, []⟩), .caller .cancel, .caller .receive].map
    (⟨false, true⟩, ·)

/-- The deadline came first, so the cancellation changes nothing; a unary call that is canceled
alone says so. -/
theorem outcome_of_complete_lateCancel :
    ∃ seen t, (Session.start timedStream).run Note lateCancel = (seen, t) ∧
      .complete (some (Phase.abortFailure .timedOut)) .empty ∈ received seen ∧
      t.stream.phase = .timedOut ∧ t.stream.clock.isLate = true ∧
      (∃ log, Outcome Note timedStream.hook .proto log .timedOut
        (some (Phase.abortFailure .timedOut)) .empty) ∧
      ∃ cause, (gettingClient.callUnary () safeCallee [1] .empty fun _ =>
        .aborted .canceled).response.cause = some cause ∧ cause.code = .canceled := by
  have shown : (received ((Session.start timedStream).run Note lateCancel).1,
      ((Session.start timedStream).run Note lateCancel).2.stream.phase) =
        ([.complete (some (Phase.abortFailure .timedOut)) .empty], .timedOut) :=
    Session.run_of_within 1 _ _ (fun r => (received r.1, r.2.stream.phase)) (by decide +kernel)
  rcases run : (Session.start timedStream).run Note lateCancel with ⟨seen, t⟩
  rw [run] at shown
  obtain ⟨all, phase⟩ := Prod.mk.inj shown
  obtain ⟨-, explained, ⟨log, -, ends⟩, unary⟩ :=
    outcome_of_complete (τ := Unit) .idle .proto () (.fresh 1) (some 5) lateCancel run
  have ended : .complete (some (Phase.abortFailure .timedOut)) .empty ∈ received seen := by
    rw [all]
    exact List.mem_singleton_self _
  have outcome := (ends _ _ ended).1
  rw [phase] at outcome
  have late : t.stream.clock.isLate = true := by
    rcases explained .timedOut phase with late | ⟨canceled, -⟩
    · exact late
    · cases canceled
  refine ⟨seen, t, rfl, ended, phase, late, ⟨log, outcome⟩, ?_⟩
  cases unary gettingClient rfl () safeCallee [1] .empty fun _ => .aborted .canceled with
  | rejected _ _ completed _ => exact absurd completed (by decide +kernel)
  | timedOut _ aborted _ _ _ => cases aborted
  | canceled _ _ _ hcause code => exact ⟨_, hcause, code⟩
  | told _ answered _ _ => cases answered

end RpcWire
