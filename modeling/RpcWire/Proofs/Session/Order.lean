import RpcWire.Proofs.Session.Run

/-!
# The order of what a caller receives

Whatever a hook makes of whatever a transport delivers, and however a caller's
operations, the transport, the deadline and the cancellation interleave, the
events that a caller receives are a beginning of: headers, messages, one
completion.

* `Event.InOrder`: the language of what may be received;
* `Stream.Orderly`: what the state of a stream says of what has been received,
  and no step breaks (`Orderly.invariant`);
* `Session.orderly_run`: so it is with every session.
-/

namespace RpcWire

variable {σ : Type}

/-! ## What may be received -/

namespace Event

variable {α : Type}

/-- A stream from its beginning to its end: headers, messages and a completion, or a completion
alone. -/
inductive Whole : List (Event α) → Prop
  | alone (cause trailers) : Whole [.complete cause trailers]
  | full (headers) (messages : List α) (cause trailers) :
      Whole (.headers headers :: (messages.map .message ++ [.complete cause trailers]))

/-- The beginning of a stream. -/
def InOrder (es : List (Event α)) : Prop := ∃ rest, Whole (es ++ rest)

def messages (es : List (Event α)) : List α :=
  es.filterMap fun
    | .message a => some a
    | _ => none

/-- An event that is no completion ends nothing. -/
theorem unfinished_append {es : List (Event α)}
    (unfinished : ∀ cause trailers, .complete cause trailers ∉ es) {e : Event α}
    (incomplete : e.isComplete = false) (cause : Option Failure) (trailers : Metadata) :
    .complete cause trailers ∉ es ++ [e] := by
  intro there
  rcases List.mem_append.mp there with there | there
  · exact unfinished cause trailers there
  · rw [← List.mem_singleton.mp there] at incomplete
    cases incomplete

def allHeaders (es : List (Event α)) : List Metadata :=
  es.filterMap fun
    | .headers m => some m
    | _ => none

theorem InOrder.nil : InOrder ([] : List (Event α)) :=
  ⟨[.complete none .empty], .alone none .empty⟩

theorem InOrder.messages (headers : Metadata) (ms : List α) :
    InOrder (.headers headers :: ms.map .message) :=
  ⟨[.complete none .empty], .full headers ms none .empty⟩

theorem Whole.inOrder {es : List (Event α)} (h : Whole es) : InOrder es := ⟨[], by simpa using h⟩

@[simp] theorem messages_map (ms : List α) : Event.messages (ms.map .message) = ms := by
  induction ms with
  | nil => rfl
  | cons m ms ih => exact congrArg (m :: ·) ih

@[simp] theorem messages_headers (headers : Metadata) (es : List (Event α)) :
    Event.messages (.headers headers :: es) = Event.messages es := rfl

@[simp] theorem messages_append (es fs : List (Event α)) :
    messages (es ++ fs) = messages es ++ messages fs := by
  simp [Event.messages]

end Event

/-! ## Order -/

namespace Stream

/-- What the state of a stream says of the events that have been received from it: none before
the headers have been given, headers and messages before the completion, and a whole stream after
it. -/
structure Orderly {β : Type} (s : Stream σ) (es : List (Event β)) : Prop where
  unseen : s.completed = false → s.headers = none → es = []
  within : s.completed = false → s.headers ≠ none →
    ∃ headers, ∃ ms : List β, es = .headers headers :: ms.map .message
  ended : s.completed = true → Event.Whole es

namespace Orderly

variable {β : Type} {s t : Stream σ} {es : List (Event β)}

/-- Whatever state a stream is in, what has been received from it is in order. -/
theorem inOrder (h : s.Orderly es) : Event.InOrder es := by
  by_cases ended : s.completed = true
  · exact (h.ended ended).inOrder
  · have hc : s.completed = false := by simpa using ended
    by_cases unseen : s.headers = none
    · rw [h.unseen hc unseen]
      exact .nil
    · obtain ⟨headers, ms, rfl⟩ := h.within hc unseen
      exact .messages headers ms

/-- Only a stream that is over has handed out a completion. -/
theorem completed_of_mem (h : s.Orderly es) {cause trailers}
    (ended : .complete cause trailers ∈ es) : s.completed = true := by
  cases hc : s.completed with
  | true => rfl
  | false =>
    by_cases unseen : s.headers = none
    · rw [h.unseen hc unseen] at ended
      cases ended
    · obtain ⟨headers, ms, rfl⟩ := h.within hc unseen
      simp at ended

/-- A stream of which nothing has been received. -/
theorem begin (unseen : s.headers = none) (running : s.completed = false) :
    s.Orderly ([] : List (Event β)) where
  unseen _ _ := rfl
  within _ seen := absurd unseen seen
  ended finished := by
    rw [running] at finished
    cases finished

/-- Only what has been given to the caller matters. -/
theorem transfer (h : s.Orderly es) (hc : t.completed = s.completed)
    (hh : t.headers = s.headers) : t.Orderly es where
  unseen running unseen := h.unseen (hc ▸ running) (hh ▸ unseen)
  within running seen := h.within (hc ▸ running) (hh ▸ seen)
  ended finished := h.ended (hc ▸ finished)

theorem next {r : Option (Event Bytes) × Stream σ} (h : s.Orderly es) (hn : s.Next r) :
    r.2.Orderly es :=
  h.transfer hn.unchanged.1 hn.unchanged.2.1

theorem sent (h : s.Orderly es) (hs : s.Sent t) : t.Orderly es :=
  h.transfer hs.unchanged.1 hs.unchanged.2.1

theorem cancel (h : s.Orderly es) : s.cancel.Orderly es := by
  unfold Stream.cancel
  by_cases ended : s.completed = true
  · rw [if_pos ended]
    exact h
  · rw [if_neg ended]
    exact h.transfer rfl rfl

/-- The completion closes the order: what has been received with it is a whole stream. -/
theorem finish (h : s.Orderly es) (hc : s.completed = false) (cause : Option Failure)
    (trailers : Metadata) :
    (s.finish (α := β) cause trailers).2.Orderly
      (es ++ [(s.finish (α := β) cause trailers).1]) := by
  have whole : Event.Whole (es ++ [(s.finish (α := β) cause trailers).1]) := by
    by_cases unseen : s.headers = none
    · rw [h.unseen hc unseen]
      exact .alone _ _
    · obtain ⟨headers, ms, rfl⟩ := h.within hc unseen
      exact .full headers ms _ _
  -- the stream is finished now, which leaves only the third case
  constructor
  · intro running
    nomatch running
  · intro running
    nomatch running
  · intro _
    exact whole

/-- The first headers, those of the transport or others in their place. -/
theorem first (h : s.Orderly es) (hc : s.completed = false) (hh : s.headers = none)
    (headers : Metadata) (pending : List (Event Bytes)) :
    Orderly { s with headers := some headers, pending } (es ++ [.headers headers]) := by
  rw [h.unseen hc hh]
  constructor
  · intro _ unseen
    nomatch unseen
  · intro _ _
    exact ⟨headers, [], rfl⟩
  · intro finished
    have finished : s.completed = true := finished
    simp [hc] at finished

theorem message (h : s.Orderly es) (hc : s.completed = false) (hh : s.headers ≠ none)
    (message : β) : s.Orderly (es ++ [.message message]) := by
  obtain ⟨headers, ms, rfl⟩ := h.within hc hh
  constructor
  · intro _ unseen
    exact absurd unseen hh
  · intro _ _
    exact ⟨headers, ms ++ [message], by simp⟩
  · intro finished
    simp [hc] at finished

/-! ## Receiving -/

variable [Message β]

/-- One turn of receiving keeps the order. -/
theorem turned {r : Turn β × Stream σ} (h : s.Orderly es) (ht : s.Turned r) :
    r.2.Orderly (es ++ r.1.events) := by
  cases ht with
  | ended _ => simpa [Turn.events] using h
  | waiting _ hn => simpa [Turn.events] using h.next hn
  | skipped _ hn _ => simpa [Turn.events] using h.next hn
  | headers hc hn hh => exact (h.next hn).first (hn.unchanged.1.trans hc) hh _ _
  | supplied hc hn hh => exact (h.next hn).first (hn.unchanged.1.trans hc) hh _ _
  | message hc hn hh _ => exact (h.next hn).message (hn.unchanged.1.trans hc) hh _
  | unreadable hc hn _ _ => exact (h.next hn).finish (hn.unchanged.1.trans hc) _ _
  | complete hc hn => exact (h.next hn).finish (hn.unchanged.1.trans hc) _ _

/-- No step breaks the order. -/
theorem invariant : Invariant (σ := σ) (Orderly (β := β)) where
  turned := turned
  sent := sent
  cancel := cancel
  closeSend h := h.transfer rfl rfl
  quiet h _ _ _ := h.transfer rfl rfl

end Orderly

/-- A stream that is over stays as it is. -/
theorem receive_of_completed {β : Type} [Message β] {s : Stream σ} (completed : s.completed = true)
    (f : Favour) : s.receive β f = some (.ended, s) :=
  receive_eq_some_iff.mpr (.ended (by rw [turn, if_pos completed]))

end Stream

/-! ## Sessions -/

namespace Session

variable {α β : Type} [Message α] [Message β]

/-- Whatever is done to a stream of which nothing has been received, its state tells what its caller
has been handed. -/
theorem orderly_run {s : Stream σ} (unseen : s.headers = none) (running : s.completed = false)
    (actions : List (Favour × Action α)) :
    Kept Stream.Orderly ((start s).run β actions).2 (received ((start s).run β actions).1) := by
  exact run_keeps Stream.Orderly.invariant (.start (.begin unseen running)) actions

/-- Once the completion has been handed out, there is nothing more to receive. -/
theorem receive_of_complete {s : Stream σ} {es : List (Event β)} (h : s.Orderly es) {cause trailers}
    (ended : .complete cause trailers ∈ es) (f : Favour) : s.receive β f = some (.ended, s) :=
  Stream.receive_of_completed (h.completed_of_mem ended) f

end Session

end RpcWire
