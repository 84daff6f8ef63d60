import RpcWire.Proofs.Session.Log
import RpcWire.Proofs.Session.Order

/-!
# Nothing lost, nothing doubled

While nothing aborts a call, the messages that its caller receives are those
that the hook has made, up to its first completion or the first payload that is
no message; at most one of them is still to be received.

* `readable`: what there is to read of the events that a hook makes;
* `Stream.Faithful`: what has been received and what is pending against what the
  hook has made, which no step breaks (`Faithful.invariant`).
-/

namespace RpcWire

variable {σ : Type}

/-! ## What there is to read -/

/-- The messages that events hold up to the first completion or the first payload that is no
message, and why that payload is none. -/
def readable (β : Type) [Message β] (e : Encoding) : List (Event Bytes) → List β × Option Failure
  | [] => ([], none)
  | .headers _ :: es => readable β e es
  | .message payload :: es =>
    match e.decode payload with
    | .ok message => (message :: (readable β e es).1, (readable β e es).2)
    | .error cause => ([], some cause)
  | .complete _ _ :: _ => ([], none)

/-- A payload that is no message is of no known code. -/
theorem code_of_readable {β : Type} [Message β] {e : Encoding} {es : List (Event Bytes)}
    {cause : Failure} (h : (readable β e es).2 = some cause) : cause.code = .unknown := by
  induction es with
  | nil => cases h
  | cons first es ih =>
    cases first with
    | headers headers => exact ih h
    | complete cause trailers => cases h
    | message payload =>
      unfold readable at h
      cases hd : e.decode (α := β) payload with
      | ok message =>
        rw [hd] at h
        exact ih h
      | error fault =>
        rw [hd] at h
        cases h
        cases e <;> simp only [Encoding.decode] at hd <;> split at hd <;> cases hd <;> rfl

/-- Whether a call has been aborted. -/
def Phase.isAborted (p : Phase) : Prop := p = .timedOut ∨ p = .canceled

instance (p : Phase) : Decidable p.isAborted := by
  unfold Phase.isAborted
  exact inferInstance

namespace Phase

theorem isAborted_abort (a : Abort) : (abort .pending a).isAborted := by
  cases a
  · exact .inl rfl
  · exact .inr rfl

/-- An abort is never undone. -/
theorem isAborted_advance {p : Phase} (h : p.isAborted) (next : Phase) :
    (p.advance next).isAborted := by
  have hne : p ≠ .pending := by
    intro hp
    rw [hp] at h
    rcases h with h | h <;> cases h
  rw [advance_of_ne hne]
  exact h

/-- Only of an aborted call is a failure reported under another code. -/
theorem resolve_of_not_aborted {p : Phase} (h : ¬ p.isAborted) (f : Failure) : p.resolve f = f := by
  unfold resolve
  rw [if_neg]
  intro late
  exact h (.inl late.2)

end Phase

/-! ## Reading event by event -/

/-- What is left to read of what a hook has made, whatever it makes next, once something has been
read. -/
structure Reads {β : Type} [Message β] (e : Encoding) (made : List (Event Bytes))
    (read : List (Event β)) (left : List (Event Bytes)) : Prop where
  messages : ∀ es, (readable β e (made ++ es)).1 =
    Event.messages read ++ (readable β e (left ++ es)).1
  cause : ∀ es, (readable β e (made ++ es)).2 = (readable β e (left ++ es)).2

namespace Reads

variable {β : Type} [Message β] {e : Encoding} {made : List (Event Bytes)} {read : List (Event β)}

theorem begin (e : Encoding) (made : List (Event Bytes)) :
    Reads e made ([] : List (Event β)) made :=
  ⟨fun _ => rfl, fun _ => rfl⟩

/-- The next event that the hook makes is the next one to be read. -/
theorem made_one (h : Reads e made read []) (next : Event Bytes) :
    Reads e (made ++ [next]) read [next] := by
  constructor <;> intro es <;> rw [List.append_assoc]
  · exact h.messages _
  · exact h.cause _

theorem headers {given} (h : Reads e made read [.headers given]) : Reads e made read [] :=
  ⟨h.messages, h.cause⟩

/-- A payload that is read as a message adds the message and nothing else. -/
theorem message {payload : Bytes} {message : β} (h : Reads e made read [.message payload])
    (hd : e.decode payload = .ok message) : Reads e made (read ++ [.message message]) [] := by
  have step : ∀ es, readable β e (.message payload :: es) =
      (message :: (readable β e es).1, (readable β e es).2) := by
    intro es
    rw [readable, hd]
  constructor <;> intro es
  · rw [h.messages, List.singleton_append, step]
    simp [Event.messages]
  · rw [h.cause, List.singleton_append, step]
    rfl

/-- Headers are no messages. -/
theorem given (h : Reads e made read left) (headers : Metadata) :
    Reads e made (read ++ [.headers headers]) left := by
  constructor <;> intro es
  · rw [h.messages]
    simp [Event.messages]
  · exact h.cause es

end Reads

/-! ## Faithful streams -/

namespace Stream

/-- What the state of a stream that keeps a log says of what has been received from it, as long as
the call is not aborted. Events that were pending from the beginning count as made. -/
structure Faithful {β : Type} [Message β] (h : StreamHook σ) (e : Encoding)
    (begun : List (Event Bytes)) (s : Stream (σ × EventLog σ)) (read : List (Event β)) : Prop where
  hook : s.hook = h.logged
  encoding : s.encoding = e
  few : s.pending.length ≤ 1
  closed : s.completed = true → s.sending = false ∧ s.pending = []
  alive : s.completed = false → ¬ s.phase.isAborted →
    s.phase = .pending ∨ ∃ cause, s.pending = [.fail cause]
  running : s.completed = false → ¬ s.phase.isAborted →
    Reads e (begun ++ h.made s.memory.2) read s.pending
  ended : s.completed = true → ¬ s.phase.isAborted →
    ∀ es, (readable β e (begun ++ h.made s.memory.2 ++ es)).1 = Event.messages read ∧
      ∀ cause, (readable β e (begun ++ h.made s.memory.2 ++ es)).2 = some cause →
        .complete (some cause) .empty ∈ read

/-- The same while the next event has been looked up and not yet handed out. -/
structure Owing {β : Type} [Message β] (h : StreamHook σ) (e : Encoding)
    (begun : List (Event Bytes)) (t : Stream (σ × EventLog σ)) (read : List (Event β))
    (next : Event Bytes) : Prop where
  hook : t.hook = h.logged
  encoding : t.encoding = e
  empty : t.pending = []
  running : t.completed = false
  alive : ¬ t.phase.isAborted → t.phase = .pending ∨ ∃ cause, next = .fail cause
  left : ¬ t.phase.isAborted → Reads e (begun ++ h.made t.memory.2) read [next]

variable {β : Type} [Message β] {h : StreamHook σ} {e : Encoding} {begun : List (Event Bytes)}
  {s t : Stream (σ × EventLog σ)} {read : List (Event β)} {next : Event Bytes}

theorem Faithful.not_aborted (hf : Faithful h e begun s read) (hc : s.completed = false) {a : Abort}
    (na : ¬ (s.phase.abort a).isAborted) :
    ¬ s.phase.isAborted ∧ ∃ cause, s.pending = [.fail cause] := by
  have before : ¬ s.phase.isAborted := fun already => na (Phase.isAborted_advance already _)
  refine ⟨before, ?_⟩
  rcases hf.alive hc before with hphase | hcause
  · rw [hphase] at na
    -- the abort would have taken effect, for nothing had ended the call before it
    exact absurd (Phase.isAborted_abort a) na
  · exact hcause

/-- Taking the next event for reading leaves it owed to the caller. -/
theorem Faithful.owing (hf : Faithful h e begun s read) (hc : s.completed = false)
    (hn : s.Next (some next, t)) : Owing h e begun t read next := by
  generalize hr : (some next, t) = r at hn
  cases hn with
  | asleep hp _ => cases hr
  -- what is pending is what is left to read: looking it up moves it from one to the other
  | @pending first rest hp =>
    cases hr
    have few := hf.few
    have hrest : rest = [] := by
      rw [hp] at few
      simpa using few
    refine ⟨hf.hook, hf.encoding, hrest, hc, ?_, ?_⟩
    · intro na
      rcases hf.alive hc na with hphase | ⟨cause, hcause⟩
      · exact .inl hphase
      · rw [hp] at hcause
        cases hcause
        exact .inr ⟨cause, rfl⟩
    · intro na
      have hreads := hf.running hc na
      rw [hp, hrest] at hreads
      exact hreads
  | @arrived arrived link hp ha =>
    cases hr
    -- the hook that keeps a log makes the same event and notes what it was given
    have hmade : h.made (s.hook.event s.memory arrived).2.2 =
        h.made s.memory.2 ++ [(s.hook.event s.memory arrived).1] := by
      rw [hf.hook, h.event_logged, h.made_append_one]
    refine ⟨hf.hook, hf.encoding, hp, hc, ?_, ?_⟩
    · intro na
      rcases hf.alive hc na with hphase | ⟨cause, hcause⟩
      · exact .inl hphase
      · rw [hp] at hcause
        cases hcause
    · intro na
      have hreads := hf.running hc na
      rw [hp] at hreads
      show Reads e (begun ++ h.made (s.hook.event s.memory arrived).2.2) read _
      rw [hmade, ← List.append_assoc]
      exact hreads.made_one _
  | aborted a hp =>
    cases hr
    have aborted : (s.abort a).2.phase.isAborted := by
      by_cases na : (s.abort a).2.phase.isAborted
      · exact na
      · obtain ⟨-, cause, hcause⟩ := hf.not_aborted hc na
        rw [hp] at hcause
        cases hcause
    exact ⟨hf.hook, hf.encoding, rfl, hc, fun na => absurd aborted na,
      fun na => absurd aborted na⟩

/-! ## Handing an event out -/

/-- Nothing is left to read once an event has been handed out. -/
theorem Owing.faithful (ho : Owing h e begun t read next) (headers : Option Metadata)
    {read' : List (Event β)} (pending : t.phase.isAborted ∨ t.phase = .pending)
    (rest : Reads e (begun ++ h.made t.memory.2) read [next] →
      Reads e (begun ++ h.made t.memory.2) read' []) :
    Faithful h e begun { t with headers } read' := by
  have hempty := ho.empty
  refine ⟨ho.hook, ho.encoding, ?_, ?_, ?_, ?_, ?_⟩
  · show t.pending.length ≤ 1
    rw [hempty]
    exact Nat.zero_le _
  · intro c
    exact absurd (show t.completed = true from c) (by simp [ho.running])
  · intro _ na
    exact .inl (pending.resolve_left na)
  · intro _ na
    show Reads e _ _ t.pending
    rw [hempty]
    exact rest (ho.left na)
  · intro c
    exact absurd (show t.completed = true from c) (by simp [ho.running])

theorem Owing.pending (ho : Owing h e begun t read next) (hne : next.isComplete = false) :
    t.phase.isAborted ∨ t.phase = .pending := by
  by_cases aborted : t.phase.isAborted
  · exact .inl aborted
  · rcases ho.alive aborted with hphase | ⟨cause, rfl⟩
    · exact .inr hphase
    · cases hne

/-- The message is put back when headers are supplied for it. -/
theorem Owing.supplied {payload : Bytes} (ho : Owing h e begun t read (.message payload))
    (headers : Option Metadata) :
    Faithful h e begun { t with headers, pending := .message payload :: t.pending }
      (read ++ [.headers .empty]) := by
  have hempty := ho.empty
  refine ⟨ho.hook, ho.encoding, ?_, ?_, ?_, ?_, ?_⟩
  · simp [hempty]
  · intro c
    exact absurd (show t.completed = true from c) (by simp [ho.running])
  · intro _ na
    exact .inl ((ho.pending rfl).resolve_left na)
  · intro _ na
    rw [hempty]
    exact (ho.left na).given _
  · intro c
    exact absurd (show t.completed = true from c) (by simp [ho.running])

/-- The stream ends at an event after which nothing can be read; if that is a payload that is no
message, the completion says so. -/
theorem Owing.finish (ho : Owing h e begun t read next) (cause : Option Failure)
    (trailers : Metadata)
    (last : ∀ es, (readable β e (next :: es)).1 = [] ∧
      ∀ fault, (readable β e (next :: es)).2 = some fault →
        cause = some fault ∧ trailers = .empty) :
    Faithful h e begun (t.finish (α := β) cause trailers).2
      (read ++ [(t.finish (α := β) cause trailers).1]) := by
  refine ⟨ho.hook, ho.encoding, Nat.zero_le _, fun _ => ⟨rfl, rfl⟩, fun c => (nomatch c),
    fun c => (nomatch c), fun _ na es => ⟨?_, ?_⟩⟩
  · have hleft := ho.left fun already => na (Phase.isAborted_advance already _)
    show (readable β e (begun ++ h.made t.memory.2 ++ es)).1 = _
    rw [hleft.messages, List.singleton_append, (last es).1]
    simp [Event.messages, Stream.finish]
  · intro fault hfault
    -- a call that was aborted before the end would still count as aborted after it
    have hleft := ho.left fun already => na (Phase.isAborted_advance already _)
    have hlast : (readable β e (next :: es)).2 = some fault := by
      rw [← hfault]
      exact (hleft.cause es).symm
    obtain ⟨rfl, rfl⟩ := (last es).2 fault hlast
    have hresolve : (t.phase.advance .completed).resolve fault = fault :=
      Phase.resolve_of_not_aborted na fault
    simp [Stream.finish, hresolve]

namespace Faithful

/-- One turn of receiving hands on exactly what the hook has made. -/
theorem turned {r : Turn β × Stream (σ × EventLog σ)} (hf : Faithful h e begun s read)
    (ht : s.Turned r) : Faithful h e begun r.2 (read ++ r.1.events) := by
  cases ht with
  | ended _ => simpa [Turn.events] using hf
  | waiting hc hn =>
    rw [hn.eq_of_none]
    simpa [Turn.events] using hf
  | @skipped t headers hc hn hh =>
    have ho := hf.owing hc hn
    simpa [Turn.events] using ho.faithful t.headers (ho.pending rfl) (·.headers)
  | headers hc hn hh =>
    have ho := hf.owing hc hn
    exact ho.faithful _ (ho.pending rfl) fun left => left.headers.given _
  | supplied hc hn hh => exact (hf.owing hc hn).supplied _
  | @message t payload message hc hn hh hd =>
    have ho := hf.owing hc hn
    rw [ho.encoding] at hd
    exact ho.faithful t.headers (ho.pending rfl) fun left => left.message hd
  | unreadable hc hn hh hd =>
    have ho := hf.owing hc hn
    rw [ho.encoding] at hd
    refine ho.finish _ _ ?_
    intro es
    rw [readable, hd]
    exact ⟨rfl, fun fault hfault => ⟨hfault, rfl⟩⟩
  | complete hc hn =>
    refine (hf.owing hc hn).finish _ _ ?_
    intro es
    refine ⟨rfl, ?_⟩
    intro fault hfault
    cases hfault

/-- An abort that is noticed before anything is received. -/
theorem abortLater (hf : Faithful h e begun s read) (hc : s.completed = false) (a : Abort) :
    Faithful h e begun (s.abortLater a).2 read := by
  refine ⟨hf.hook, hf.encoding, Nat.le_refl _, ?_, fun _ _ => .inr ⟨_, rfl⟩,
    ?_, ?_⟩
  · intro c
    exact absurd (show s.completed = true from c) (by simp [hc])
  · intro _ na
    -- the failure that was pending already takes the place of the one of the abort
    obtain ⟨before, cause, hcause⟩ := hf.not_aborted hc na
    have hreads := hf.running hc before
    rw [hcause] at hreads
    exact ⟨hreads.messages, hreads.cause⟩
  · intro c
    exact absurd (show s.completed = true from c) (by simp [hc])

theorem resend (hf : Faithful h e begun s read) (own : σ) (link : Link) (listening : Bool)
    (clock : Clock) :
    Faithful h e begun { s with link, listening, clock, memory := (own, s.memory.2) } read :=
  ⟨hf.hook, hf.encoding, hf.few, hf.closed, hf.alive, hf.running, hf.ended⟩

theorem sent (hf : Faithful h e begun s read) (hs : s.Sent t) : Faithful h e begun t read := by
  have noted := memory_message hf.hook
  cases hs with
  | refused => exact hf
  | asked body link _ =>
    rw [noted]
    exact hf.resend _ link s.listening s.clock
  | aborted body a sending =>
    -- a stream that is over sends no more, so this one is not over
    have hc : s.completed = false := by
      cases c : s.completed with
      | false => rfl
      | true =>
        rw [(hf.closed c).1] at sending
        cases sending
    rw [noted]
    exact (hf.resend (h.message s.memory.1 body).2 s.link s.listening s.clock).abortLater hc a

theorem cancel (hf : Faithful h e begun s read) : Faithful h e begun s.cancel read := by
  unfold Stream.cancel
  by_cases ended : s.completed = true
  · rw [if_pos ended]
    exact hf
  · rw [if_neg ended]
    exact hf.abortLater (by simpa using ended) .canceled

theorem closeSend (hf : Faithful h e begun s read) : Faithful h e begun s.closeSend read :=
  ⟨hf.hook, hf.encoding, hf.few, fun c => ⟨rfl, (hf.closed c).2⟩, hf.alive, hf.running, hf.ended⟩

/-- No step loses or doubles a message. -/
theorem invariant (h : StreamHook σ) (e : Encoding) (begun : List (Event Bytes)) :
    Invariant (Faithful (β := β) h e begun) where
  turned := turned
  sent := sent
  cancel := cancel
  closeSend := closeSend
  quiet hf listening link clock := hf.resend _ link listening clock

end Faithful

end Stream

end RpcWire
