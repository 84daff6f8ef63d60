import RpcWire.Proofs.Client.Stream
import RpcWire.Proofs.Session.Outcome
import RpcWire.Proofs.Session.Reply

/-!
# What a caller is shown in the end

A transport tells a stream what arrives, one event after another. What the
caller is shown of it is settled by the hook and the encoding alone, as long as
nothing aborts the call (`shown`): it does not matter when the events come,
what the caller sends meanwhile, or how often the caller looks.

* `Tells`: the transport delivers events in order, and hangs up after the last;
* `Stream.Showing`: what has been shown and what is still to come are always the
  same together, which no turn changes (`Showing.turned`);
* `Stream.Showing.replies`: once everything is there, whoever asks for the
  single response gets a reply;
* `Session.showing_run`, `Session.replies_shown`: whole sessions, and the replies
  that are made of them.
-/

namespace RpcWire

variable {σ : Type}

/-! ## What there is to be shown -/

/-- What a caller is shown of the events that a hook has made: headers first, supplied if there are
none, then messages as far as they can be read, and one completion. Headers are shown once. -/
def shown (β : Type) [Message β] (e : Encoding) : Bool → List (Event Bytes) → List (Event β)
  | _, [] => []
  | given, .headers headers :: es =>
    (if given then [] else [.headers headers]) ++ shown β e true es
  | given, .message payload :: es =>
    (if given then [] else [.headers .empty]) ++
      match e.decode payload with
      | .ok message => .message message :: shown β e true es
      | .error cause => [.complete (some cause) .empty]
  | _, .complete cause trailers :: _ => [.complete cause trailers]

/-- A hook that a message on its way out does not make remember anything. -/
def StreamHook.IsSteady (h : StreamHook σ) : Prop := ∀ m body, (h.message m body).2 = m

/-- Whether the transport tells the stream something. -/
def Action.isTold {α : Type} : Action α → Bool
  | .deliver _ | .hangUp => true
  | _ => false

/-- Everything that may become of what a transport has still to tell: it delivers the next event, it
hangs up after the last one, or something else happens. -/
inductive Tells {α : Type} :
    List (Event Bytes) → List (Favour × Action α) → List (Event Bytes) → Prop
  | nothing (left) : Tells left [] left
  | deliver {e left rest after} (f) : Tells left rest after →
      Tells (e :: left) ((f, .deliver e) :: rest) after
  | hangUp {rest after} (f) : Tells [] rest after → Tells [] ((f, .hangUp) :: rest) after
  | other {a left rest after} (f) : a.isTold = false → Tells left rest after →
      Tells left ((f, a) :: rest) after

section Shown

variable {β : Type} [Message β] {e : Encoding}

theorem shown_headers (headers : Metadata) (es : List (Event Bytes)) :
    shown β e false (.headers headers :: es) = .headers headers :: shown β e true es := rfl

theorem shown_skipped (headers : Metadata) (es : List (Event Bytes)) :
    shown β e true (.headers headers :: es) = shown β e true es := rfl

/-- Headers are supplied in front of a message that came without any. -/
theorem shown_supplied (payload : Bytes) (es : List (Event Bytes)) :
    shown β e false (.message payload :: es) =
      .headers .empty :: shown β e true (.message payload :: es) := rfl

theorem shown_message {payload : Bytes} {message : β} (read : e.decode payload = .ok message)
    (es : List (Event Bytes)) :
    shown β e true (.message payload :: es) = .message message :: shown β e true es := by
  simp [shown, read]

/-- A payload that is no message ends what is shown, with the failure of the decoder. -/
theorem shown_unreadable {payload : Bytes} {cause : Failure}
    (unread : e.decode (α := β) payload = .error cause) (es : List (Event Bytes)) :
    shown β e true (.message payload :: es) = [.complete (some cause) .empty] := by
  simp [shown, unread]

/-- Nothing is shown after a completion. -/
theorem shown_complete (given : Bool) (cause : Option Failure) (trailers : Metadata)
    (es : List (Event Bytes)) :
    shown β e given (.complete cause trailers :: es) = [.complete cause trailers] := by
  cases given <;> rfl

end Shown

/-! ## Streams -/

namespace Stream

/-- How many events are there to be looked at. -/
def backlog (s : Stream σ) : Nat := s.pending.length + s.link.inbox.length

/-- What there still is to show of a stream whose transport has `left` to deliver. -/
def toShow (β : Type) [Message β] (s : Stream σ) (left : List (Event Bytes)) : List (Event β) :=
  shown β s.encoding s.headers.isSome
    (s.pending ++ s.hook.produce s.memory (s.link.inbox ++ left))

variable {β : Type} [Message β]

/-- What has been shown of a stream, and what is still to come, is `all`. -/
structure Showing (h : StreamHook σ) (e : Encoding) (all : List (Event β))
    (left : List (Event Bytes)) (s : Stream σ) (read : List (Event β)) : Prop where
  hook : s.hook = h
  encoding : s.encoding = e
  pending : s.completed = false → s.phase = .pending
  listening : s.completed = false → s.listening = true
  unfinished : s.completed = false → ∀ cause trailers, .complete cause trailers ∉ read
  hungUp : s.link.hungUp = true → left = []
  running : s.completed = false → read ++ s.toShow β left = all
  ended : s.completed = true → read = all

/-- The same while the next event has been looked up and not yet handed out. -/
structure Presenting (h : StreamHook σ) (e : Encoding) (all : List (Event β))
    (left : List (Event Bytes)) (t : Stream σ) (read : List (Event β)) (next : Event Bytes) :
    Prop where
  hook : t.hook = h
  encoding : t.encoding = e
  running : t.completed = false
  pending : t.phase = .pending
  listening : t.listening = true
  hungUp : t.link.hungUp = true → left = []
  toShow : read ++ shown β e t.headers.isSome
    (next :: (t.pending ++ h.produce t.memory (t.link.inbox ++ left))) = all

variable {h : StreamHook σ} {e : Encoding} {all : List (Event β)} {left : List (Event Bytes)}
  {s t : Stream σ} {read : List (Event β)} {next : Event Bytes}

/-- As long as the completion has not been shown, there is something to show. -/
theorem Showing.more (whole : ∃ cause trailers, .complete cause trailers ∈ all)
    (hs : Showing h e all left s read) (running : s.completed = false) :
    ¬ (s.pending = [] ∧ s.link.inbox = [] ∧ left = []) := by
  rintro ⟨empty, arrived, told⟩
  obtain ⟨cause, trailers, there⟩ := whole
  have all_read : read ++ [] = all := by
    have running := hs.running running
    unfold Stream.toShow at running
    rw [empty, arrived, told] at running
    exact running
  rw [List.append_nil] at all_read
  exact hs.unfinished running cause trailers (all_read ▸ there)

/-- Looking the next event up takes it off what there is to show, unless the call is aborted. -/
theorem Showing.presenting (whole : ∃ cause trailers, .complete cause trailers ∈ all)
    (hs : Showing h e all left s read) (running : s.completed = false)
    (hn : s.Next (some next, t)) :
    t.phase.isAborted ∧ (∃ cause, next = .fail cause) ∨
      Presenting h e all left t read next ∧ (left = [] → t.backlog + 1 = s.backlog) := by
  have shows := hs.running running
  unfold Stream.toShow at shows
  rw [hs.hook, hs.encoding] at shows
  generalize hr : (some next, t) = r at hn
  cases hn with
  | asleep _ _ => cases hr
  | @pending first rest hp =>
    cases hr
    refine .inr ⟨⟨hs.hook, hs.encoding, running, hs.pending running, hs.listening running,
      hs.hungUp, ?_⟩, ?_⟩
    · rw [hp] at shows
      exact shows
    · intro _
      simp [backlog, hp]
      omega
  | aborted a hp =>
    cases hr
    refine .inl ⟨?_, _, rfl⟩
    show (s.phase.abort a).isAborted
    rw [hs.pending running]
    exact Phase.isAborted_abort a
  | @arrived arrived link hp ha =>
    cases hr
    cases inbox : s.link.inbox with
    | nil =>
      -- the transport has hung up, and everything has been shown
      unfold Stream.arrival? at ha
      rw [inbox] at ha
      simp only [hs.listening running] at ha
      split at ha
      · next hung =>
        have told := hs.hungUp (by simpa using hung)
        exact absurd ⟨hp, inbox, told⟩ (hs.more whole running)
      · cases ha
    | cons first rest =>
      unfold Stream.arrival? at ha
      rw [inbox] at ha
      cases ha
      refine .inr ⟨⟨hs.hook, hs.encoding, running, hs.pending running, hs.listening running,
        hs.hungUp, ?_⟩, ?_⟩
      · rw [inbox, hp] at shows
        rw [← shows, ← hs.hook, hp]
        rfl
      · intro _
        simp [backlog, inbox, hp]

/-- Only a failure can come of an abort. -/
theorem Showing.presents (whole : ∃ cause trailers, .complete cause trailers ∈ all)
    (hs : Showing h e all left s read) (running : s.completed = false)
    (hn : s.Next (some next, t)) (incomplete : next.isComplete = false) :
    Presenting h e all left t read next ∧ (left = [] → t.backlog + 1 = s.backlog) := by
  rcases hs.presenting whole running hn with ⟨-, cause, rfl⟩ | presenting
  · cases incomplete
  · exact presenting

namespace Presenting

variable (hp : Presenting h e all left t read next)

include hp

/-- An event has been handed out, or put back behind headers in its place. -/
theorem give (headers : Option Metadata) (pending : List (Event Bytes)) {given : List (Event β)}
    (unfinished : ∀ cause trailers, .complete cause trailers ∉ given)
    (shows : given ++ shown β e headers.isSome
      (pending ++ h.produce t.memory (t.link.inbox ++ left)) = all) :
    Showing h e all left { t with headers, pending } given where
  hook := hp.hook
  encoding := hp.encoding
  pending _ := hp.pending
  listening _ := hp.listening
  unfinished _ := unfinished
  hungUp := hp.hungUp
  running _ := by
    unfold Stream.toShow
    rw [hp.hook, hp.encoding]
    exact shows
  ended finished := by
    have finished : t.completed = true := finished
    rw [hp.running] at finished
    cases finished

/-- The completion is handed out, and nothing is left to show. -/
theorem finish {cause : Option Failure} {trailers : Metadata}
    (shows : read ++ [.complete cause trailers] = all) :
    Showing h e all left (t.finish (α := β) cause trailers).2
      (read ++ [(t.finish (α := β) cause trailers).1]) := by
  -- the call was pending, so that the cause is reported as it is
  have reported : (t.finish (α := β) cause trailers).1 = .complete cause trailers := by
    show Event.complete (cause.map (t.phase.advance .completed).resolve) trailers = _
    rw [hp.pending, show Phase.pending.advance .completed = .completed from rfl,
      funext Phase.resolve_completed, Option.map_id']
  rw [reported]
  exact ⟨hp.hook, hp.encoding, nofun, nofun, nofun, hp.hungUp, nofun, fun _ => shows⟩

end Presenting

/-- A turn changes nothing of what is shown in the end, unless the call is aborted and ends with
that. -/
theorem Showing.turned (whole : ∃ cause trailers, .complete cause trailers ∈ all)
    {r : Turn β × Stream σ} (hs : Showing h e all left s read) (ht : s.Turned r) :
    r.2.phase.isAborted ∧ (∃ cause trailers, r.1 = .event (.complete cause trailers)) ∨
      Showing h e all left r.2 (read ++ r.1.events) := by
  cases ht with
  | ended _ => exact .inr (by rwa [show Turn.events (α := β) .ended = [] from rfl, List.append_nil])
  | waiting _ hn =>
    rw [hn.eq_of_none, show Turn.events (α := β) .waiting = [] from rfl, List.append_nil]
    exact .inr hs
  | @skipped t headers running hn seen =>
    have hp := (hs.presents whole running hn rfl).1
    have shows := hp.toShow
    rw [Option.isSome_iff_ne_none.mpr seen, shown_skipped] at shows
    rw [show Turn.events (α := β) .skipped = [] from rfl, List.append_nil]
    refine .inr (hp.give t.headers t.pending (hs.unfinished running) ?_)
    rw [Option.isSome_iff_ne_none.mpr seen]
    exact shows
  | @headers t headers running hn unseen =>
    have hp := (hs.presents whole running hn rfl).1
    have shows := hp.toShow
    rw [unseen, Option.isSome_none, shown_headers, List.append_cons] at shows
    exact .inr (hp.give _ t.pending (Event.unfinished_append (hs.unfinished running) rfl) shows)
  | @supplied t payload running hn unseen =>
    have hp := (hs.presents whole running hn rfl).1
    have shows := hp.toShow
    rw [unseen, Option.isSome_none, shown_supplied, List.append_cons] at shows
    exact .inr (hp.give _ _ (Event.unfinished_append (hs.unfinished running) rfl) shows)
  | @message t payload message running hn seen decoded =>
    have hp := (hs.presents whole running hn rfl).1
    have shows := hp.toShow
    rw [hp.encoding] at decoded
    rw [Option.isSome_iff_ne_none.mpr seen, shown_message decoded, List.append_cons] at shows
    refine .inr (hp.give t.headers t.pending
      (Event.unfinished_append (hs.unfinished running) rfl) ?_)
    rw [Option.isSome_iff_ne_none.mpr seen]
    exact shows
  | @unreadable t payload cause running hn seen decoded =>
    have hp := (hs.presents whole running hn rfl).1
    have shows := hp.toShow
    rw [hp.encoding] at decoded
    rw [Option.isSome_iff_ne_none.mpr seen, shown_unreadable decoded] at shows
    exact .inr (hp.finish shows)
  | @complete t cause trailers running hn =>
    -- this may be the failure that an abort made
    refine (hs.presenting whole running hn).imp (fun aborted => ?_) fun hp => ?_
    · exact ⟨Phase.isAborted_advance aborted.1 _, _, _, rfl⟩
    · have shows := hp.1.toShow
      rw [shown_complete] at shows
      exact hp.1.finish shows

/-- No step undoes an abort. -/
theorem isAborted_invariant : Invariant (β := β) fun (s : Stream σ) _ => s.phase.isAborted := by
  apply Invariant.of_alone
  · intro s aborted _ _ _ _ _ _
    exact aborted
  · intro s aborted a
    exact Phase.isAborted_advance aborted _
  · intro _ s aborted _ _
    exact Phase.isAborted_advance aborted _
  · intro s aborted
    exact aborted

/-- One turn shows the next event that is to be shown, if the call has not been aborted. -/
theorem showing_turned (whole : ∃ cause trailers, .complete cause trailers ∈ all)
    {s : Stream σ} {read : List (Event β)} {r : Turn β × Stream σ}
    (hs : s.phase.isAborted ∨ Showing h e all left s read) (ht : s.Turned r) :
    r.2.phase.isAborted ∨ Showing h e all left r.2 (read ++ r.1.events) := by
  rcases hs with aborted | hs
  · exact .inl (@Invariant.turned σ β _ _ isAborted_invariant s read r aborted ht)
  · exact (hs.turned whole ht).imp_left And.left

/-- Receiving changes nothing of it either. -/
theorem Showing.received (whole : ∃ cause trailers, .complete cause trailers ∈ all)
    (hs : Showing h e all left s read) {f : Favour} {r : Receiving β}
    (receives : Receives f s r t) :
    t.phase.isAborted ∨ Showing h e all left t (read ++ r.events) :=
  @Receives.keeps σ β _ (fun t es => t.phase.isAborted ∨ Showing h e all left t es) s t read f
    (showing_turned whole) r receives (.inr hs)

/-! ## Receiving everything -/

/-- Where everything has been told there is always an event to receive, up to the completion. -/
theorem Showing.receives (whole : ∃ cause trailers, .complete cause trailers ∈ all)
    (hs : Showing h e all [] s read) (running : s.completed = false) (f : Favour) :
    ∃ event t, Receives f s (.event event) t ∧
      ((∃ cause trailers, event = .complete cause trailers) ∨
        Showing h e all [] t (read ++ [event])) := by
  induction size : s.backlog using Nat.strong_induction_on generalizing s with
  | _ n ih =>
    have turned := s.turned_turn (β := β) f
    have showing := hs.turned whole turned
    rcases come : s.turn β f with ⟨event | _ | _ | _, t⟩ <;> rw [come] at turned showing
    · refine ⟨event, t, .event come, showing.imp_left ?_⟩
      rintro ⟨-, cause, trailers, same⟩
      exact ⟨cause, trailers, Turn.event.inj same⟩
    · cases turned with
      | skipped _ hn _ =>
        rcases showing with ⟨-, _, _, same⟩ | showing
        · cases same
        rw [show Turn.events (α := β) .skipped = [] from rfl, List.append_nil] at showing
        have fewer := (hs.presents whole running hn rfl).2 rfl
        obtain ⟨event, u, receives, ends⟩ :=
          ih t.backlog (by omega) showing (hn.unchanged.1.trans running) rfl
        exact ⟨event, u, .skipped come receives, ends⟩
    · cases turned with
      | waiting _ hn =>
        -- nothing would be pending, and nothing would have arrived
        cases hn with
        | asleep empty nothing =>
          refine absurd ⟨empty, ?_, rfl⟩ (hs.more whole running)
          unfold arrival? at nothing
          split at nothing
          · cases nothing
          · next inbox => exact inbox
    · cases turned with
      | ended completed => cases running.symm.trans completed

theorem Showing.length_le (hs : Showing h e all left s read) : read.length ≤ all.length := by
  cases completed : s.completed with
  | true => rw [hs.ended completed]
  | false =>
    rw [← hs.running completed, List.length_append]
    exact Nat.le_add_right _ _

/-- Where everything has been told, asking for the single response comes to an end, and to a
reply. -/
theorem Showing.replies (whole : ∃ cause trailers, .complete cause trailers ∈ all)
    (hs : Showing h e all [] s read) (f : Favour) (g : Gathered β) :
    ∃ rs t r, Gathers Gathered.take (fun g => g.reply.isNone) f g s rs t ∧
      (rs.foldl Gathered.take g).reply = some r := by
  induction size : all.length - read.length using Nat.strong_induction_on
    generalizing s read g with
  | _ n ih =>
    cases completed : s.completed with
    | true =>
      have ended := receive_eq_some_iff.mp (receive_of_completed (β := β) completed f)
      exact ⟨[.ended], s, g.close, .last ended nofun, rfl⟩
    | false =>
      obtain ⟨event, t, receives, ends⟩ := hs.receives whole completed f
      cases made : (g.absorb event).reply with
      | some r =>
        refine ⟨[.event event], t, r, .last receives fun goes => ?_, made⟩
        rw [Gathered.take, made] at goes
        cases goes.2
      | none =>
        rcases ends with ⟨cause, trailers, rfl⟩ | showing
        · -- a completion makes a reply, if there is none yet
          cases (g.isSome_absorb_complete cause trailers).symm.trans (congrArg Option.isSome made)
        · have longer := showing.length_le
          rw [List.length_append, List.length_singleton] at longer
          obtain ⟨rs, u, r, gathers, reply⟩ :=
            ih _ (by rw [← size, List.length_append, List.length_singleton]; omega) showing
              (g.absorb event) rfl
          refine ⟨.event event :: rs, u, r, .next receives rfl ?_ gathers, reply⟩
          rw [Gathered.take, made]
          rfl

/-- Everything is still to be shown of a stream that has just been opened. -/
theorem showing_opened (h : StreamHook σ) (e : Encoding) (m : σ) (capacity : Nat)
    (deadline : Option Nanoseconds) (told : List (Event Bytes)) :
    Showing h e (shown β e false (h.produce m told)) told
      (.opened h e m (.fresh capacity) deadline) [] where
  hook := rfl
  encoding := rfl
  pending _ := rfl
  listening _ := rfl
  unfinished _ _ _ := nofun
  hungUp := nofun
  running _ := rfl
  ended := nofun

/-! ## Everything else that is done to a stream -/

/-- What is shown does not depend on how frames go out, nor on the clock. -/
theorem Showing.relink (hs : Showing h e all left s read) {link : Link} {sending : Bool}
    {clock : Clock} (inbox : link.inbox = s.link.inbox) (hungUp : link.hungUp = true → left = []) :
    Showing h e all left { s with link, sending, clock } read where
  hook := hs.hook
  encoding := hs.encoding
  pending := hs.pending
  listening := hs.listening
  unfinished := hs.unfinished
  hungUp := hungUp
  running running := by
    have shows := hs.running running
    unfold Stream.toShow at shows ⊢
    rw [← inbox] at shows
    exact shows
  ended := hs.ended

/-- An abort comes too late, or there is nothing to say of what is shown. -/
theorem Showing.abortLater (hs : Showing h e all left s read) (a : Abort) :
    (s.abortLater a).2.phase.isAborted ∨ Showing h e all left (s.abortLater a).2 read := by
  cases completed : s.completed with
  | false =>
    refine .inl ?_
    show (s.phase.abort a).isAborted
    rw [hs.pending completed]
    exact Phase.isAborted_abort a
  | true =>
    have finished : (s.abortLater a).2.completed = true := completed
    refine .inr ⟨hs.hook, hs.encoding, ?_, ?_, ?_, hs.hungUp, ?_, fun _ => hs.ended completed⟩ <;>
      (rw [finished]; exact nofun)

/-- Sending shows nothing, and only an abort that it notices changes what will be shown. -/
theorem Showing.send {α : Type} [Message α] (steady : h.IsSteady)
    (hs : Showing h e all left s read) (f : Favour) (message : α) :
    (s.send f message).2.phase.isAborted ∨ Showing h e all left (s.send f message).2 read := by
  -- whatever the hook was asked, it remembers what it did before
  have remembered : ∀ {made memory}, s.framed message = (made, memory) → memory = s.memory := by
    intro made memory framed
    rcases memory_of_framed framed with ⟨same, -⟩ | ⟨body, asked⟩
    · exact same
    · rw [asked, hs.hook]
      exact steady s.memory body
  have dispatched := s.dispatched_send f message
  generalize s.send f message = r at dispatched
  cases dispatched with
  | closed _ => exact .inr hs
  | unframed _ framed =>
    obtain rfl := remembered framed
    exact .inr hs
  | unread _ framed _ =>
    obtain rfl := remembered framed
    exact .inr hs
  | queued _ framed _ _ =>
    obtain rfl := remembered framed
    exact .inr (hs.relink rfl hs.hungUp)
  | aborted a _ framed =>
    obtain rfl := remembered framed
    exact hs.abortLater a
  | waiting _ framed _ _ =>
    obtain rfl := remembered framed
    exact .inr hs

/-- Delivery moves an event from what the transport has left to what waits for the stream. -/
theorem Showing.deliver {next : Event Bytes} (hs : Showing h e all (next :: left) s read)
    (held : Bool) : Showing h e all left (Session.deliver ⟨s, held⟩ next).2.stream read := by
  have open_ : s.link.hungUp ≠ true := fun hung => nomatch hs.hungUp hung
  unfold Session.deliver
  by_cases listens : s.listening = true
  · simp only [if_pos (And.intro listens open_)]
    refine ⟨hs.hook, hs.encoding, hs.pending, hs.listening, hs.unfinished,
      fun hung => absurd hung open_, ?_, hs.ended⟩
    intro running
    have shows := hs.running running
    unfold Stream.toShow at shows ⊢
    simp only [List.append_assoc]
    exact shows
  · -- the stream is over, and what comes now is lost
    have finished : s.completed = true := by
      apply Bool.of_not_eq_false
      exact fun running => listens (hs.listening running)
    simp only [listens, Bool.false_eq_true, false_and, if_false]
    refine ⟨hs.hook, hs.encoding, ?_, ?_, ?_, fun hung => absurd hung open_, ?_, hs.ended⟩ <;>
      (rw [finished]; exact nofun)

end Stream

/-! ## Sessions -/

namespace Session

variable {α β : Type} [Message α] [Message β] {h : StreamHook σ} {e : Encoding}
  {all : List (Event β)} {left after : List (Event Bytes)} {s : Session σ} {read : List (Event β)}

/-- An action that tells the stream nothing, and leaves it in the caller's hands. -/
theorem showing_perform (steady : h.IsSteady)
    (whole : ∃ cause trailers, .complete cause trailers ∈ all)
    (hs : s.stream.Showing h e all left read) (f : Favour) {a : Action α}
    (still : (s.perform β f a).2.held = true) (untold : a.isTold = false) :
    (s.perform β f a).2.stream.phase.isAborted ∨
      (s.perform β f a).2.stream.Showing h e all left (read ++ (s.perform β f a).1.handed) := by
  have nothing : s.stream.Showing h e all left (read ++ []) := by rwa [List.append_nil]
  have taking : ∀ limit, (s.perform (α := α) β f (.takeFrames limit)).2.stream.Showing h e all left
      (read ++ []) := by
    intro limit
    simp only [perform, takeFrames]
    split
    · exact nothing.relink rfl hs.hungUp
    · exact nothing
  cases a with
  | caller a =>
    simp only [perform, if_pos (held_of_perform still)] at still ⊢
    cases a with
    | send message =>
      have sent := nothing.send steady f message
      simp only [performHeld]
      rcases dispatched : s.stream.send f message with ⟨_ | _ | _, t⟩ <;>
        (rw [dispatched] at sent; exact sent)
    | receive =>
      rcases performHeld_receive (α := α) (β := β) s.stream f with ⟨r, t, receives, seen⟩ | seen <;>
        rw [seen]
      · have showing := hs.received whole receives
        cases r <;> exact showing
      · exact .inr nothing
    | cancel =>
      show s.stream.cancel.phase.isAborted ∨ s.stream.cancel.Showing h e all left (read ++ [])
      unfold Stream.cancel
      split
      · exact .inr nothing
      · exact nothing.abortLater .canceled
    | closeSend => exact .inr (nothing.relink rfl hs.hungUp)
    | headers => exact .inr nothing
    | closeAndReceive =>
      -- the stream would be given up
      rcases performHeld_closeAndReceive (α := α) (β := β) s.stream f with
        ⟨_, _, _, seen⟩ | seen <;>
        (rw [seen] at still; cases still)
    | collect =>
      rcases performHeld_collect (α := α) (β := β) s.stream f with ⟨_, _, _, seen | seen⟩ | seen <;>
        (rw [seen] at still; cases still)
    | drop => cases still
  | deliver e => cases untold
  | hangUp => cases untold
  | takeBody => exact .inr (taking s.stream.link.queue.length)
  | takeFrames limit => exact .inr (taking limit)
  | dropBody => exact .inr (nothing.relink rfl hs.hungUp)
  | fire => exact .inr (nothing.relink rfl hs.hungUp)
  | advance t => exact .inr (nothing.relink rfl hs.hungUp)

/-- Whatever is done to a stream while its transport tells it what there is to tell: what has been
shown and what is still to come stay the same together, unless the call is aborted. -/
theorem showing_run (steady : h.IsSteady)
    (whole : ∃ cause trailers, .complete cause trailers ∈ all)
    {actions : List (Favour × Action α)} (tells : Tells left actions after)
    (hs : s.stream.Showing h e all left read) (held : (s.run β actions).2.held = true)
    (unaborted : ¬ (s.run β actions).2.stream.phase.isAborted) :
    (s.run β actions).2.stream.Showing h e all after (read ++ received (s.run β actions).1) := by
  induction tells generalizing s read with
  | nothing left =>
    show s.stream.Showing h e all left (read ++ [])
    rwa [List.append_nil]
  | @deliver next left rest after f _ ih =>
    simp only [run, received_cons]
    exact ih (hs.deliver s.held) held unaborted
  | @hangUp rest after f _ ih =>
    simp only [run, received_cons]
    exact ih (hs.relink rfl (fun _ => rfl)) held unaborted
  | @other a left rest after f untold _ ih =>
    have still : (s.perform β f a).2.held = true := held_of_run held
    have showing := showing_perform steady whole hs f still untold
    have kept : ¬ (s.perform β f a).2.stream.phase.isAborted := fun aborted =>
      unaborted (run_keeps_stream Stream.isAborted_invariant aborted rest)
    have later := ih (showing.resolve_left kept) held unaborted
    simp only [run, received_cons]
    rwa [List.append_assoc] at later

/-! ## Replies -/

/-- A reply that waiting makes is the one that everything shown makes. -/
theorem await_shown (steady : h.IsSteady) (whole : ∃ cause trailers, .complete cause trailers ∈ all)
    (begun : s.stream.Orderly ([] : List (Event β))) (hs : s.stream.Showing h e all left [])
    {actions : List (Favour × Action α)} (tells : Tells left actions after)
    (held : (s.run β actions).2.held = true)
    (unaborted : ¬ (s.run β actions).2.stream.phase.isAborted) {r : Reply β}
    (replied : Gathered.empty.await (s.run β actions).1 = some r) : r = Reply.ofEvents all := by
  have showing := showing_run steady whole tells hs held unaborted
  have began : Kept Stream.Orderly s ([] : List (Event β)) :=
    ⟨fun _ => begun, ⟨_, begun⟩, [], begun⟩
  have orderly := (run_keeps Stream.Orderly.invariant began actions).held held
  have made := (await_begun begun held).symm.trans replied
  have completed := orderly.reply_iff.mp (congrArg Option.isSome made)
  rw [← showing.ended completed, List.nil_append, Reply.ofEvents, Gathered.close, made]
  rfl

omit [Message α] in
theorem tells_receiving (left : List (Event Bytes)) (f : Favour) (n : Nat) :
    Tells left (receiving α f n) left := by
  induction n with
  | zero => exact .nothing left
  | succ n ih => exact .other f rfl ih

/-- Closing and receiving makes the reply that everything shown makes, or none yet; there is one if
everything has been told. -/
theorem closeAndReceive_shown (steady : h.IsSteady)
    (whole : ∃ cause trailers, .complete cause trailers ∈ all)
    (begun : s.stream.Orderly ([] : List (Event β))) (hs : s.stream.Showing h e all left [])
    (held : s.held = true) (f : Favour) :
    (∀ r, (s.perform (α := α) β f (.caller .closeAndReceive)).1 = .reply r →
        ¬ (s.perform (α := α) β f (.caller .closeAndReceive)).2.stream.phase.isAborted →
        r = Reply.ofEvents all) ∧
      (left = [] → ∃ r, (s.perform (α := α) β f (.caller .closeAndReceive)).1 = .reply r) := by
  have closed : s.stream.closeSend.Showing h e all left [] := hs.relink rfl hs.hungUp
  have asked : s.perform (α := α) β f (.caller .closeAndReceive) =
      performHeld β s.stream f .closeAndReceive := if_pos held
  rw [asked]
  constructor
  · rcases come : performHeld β s.stream f (.closeAndReceive : CallerAction α) with ⟨seen, u⟩
    rintro r rfl unaborted
    obtain ⟨n, seen, t, receives, rfl, made⟩ := await_of_closeAndReceive come
    have still :
        ¬ ((start s.stream.closeSend).run β (receiving α f n)).2.stream.phase.isAborted := by
      rw [receives]
      exact unaborted
    refine await_shown (s := start s.stream.closeSend) steady whole (begun.transfer rfl rfl) closed
      (tells_receiving left f n) (held_receiving _ f n) still ?_
    rw [receives]
    exact made
  · rintro rfl
    obtain ⟨rs, t, r, gathers, made⟩ := closed.replies whole f Gathered.empty
    obtain ⟨u, replied⟩ := closeAndReceive_of_gathers (α := α) gathers made
    exact ⟨r, congrArg Prod.fst replied⟩

/-- Every reply to a caller who waits, or who receives everything at once, is the one that
everything shown makes. -/
theorem replies_shown {s : Stream σ} (fresh : s.Fresh) (steady : h.IsSteady)
    (whole : ∃ cause trailers, .complete cause trailers ∈ all)
    (begun : s.Showing h e all left []) {actions : List (Favour × Action α)}
    (tells : Tells left actions after) {seen : List (Observation β)} {t : Session σ}
    (run : (start s).run β actions = (seen, t)) (held : t.held = true)
    (unaborted : ¬ t.stream.phase.isAborted) :
    (∀ r, Gathered.empty.await seen = some r → r = Reply.ofEvents all) ∧
      (received seen = [] → ∀ f : Favour,
          (∀ r, (t.perform (α := α) β f (.caller .closeAndReceive)).1 = .reply r →
            ¬ (t.perform (α := α) β f (.caller .closeAndReceive)).2.stream.phase.isAborted →
            r = Reply.ofEvents all) ∧
          (after = [] →
            ∃ r, (t.perform (α := α) β f (.caller .closeAndReceive)).1 = .reply r)) := by
  obtain ⟨unseen, running⟩ := fresh.unseen
  have kept : ((start s).run β actions).2.held = true := by
    rw [run]
    exact held
  have still : ¬ ((start s).run β actions).2.stream.phase.isAborted := by
    rw [run]
    exact unaborted
  constructor
  · intro r replied
    refine await_shown (s := start s) steady whole (.begin unseen running) begun tells kept still ?_
    rw [run]
    exact replied
  · intro silent f
    have showing := showing_run (s := start s) steady whole tells begun kept still
    have orderly := (orderly_run (β := β) unseen running actions).held kept
    rw [run] at showing orderly
    rw [silent] at showing orderly
    exact closeAndReceive_shown steady whole orderly showing held f

end Session

end RpcWire
