import RpcWire.Client.Session

/-!
# The steps of a stream

Everything that one operation on a stream can come to, said once for each
operation, with the conditions under which it does. What holds of a stream after
any operations is proved by cases on these relations.

* `Stream.Next`: looking for the next event;
* `Stream.Dispatched`: sending a message, and what comes of it;
* `Stream.Sent`: what sending does to the stream, whatever comes of it;
* `Stream.Turned`: one turn of receiving.
-/

namespace RpcWire

variable {σ : Type}

/-- What is noticed first is there. -/
theorem Wake.first_eq {α : Type} (f : Favour) (queue : Option α) (abort : Option Abort) :
    (∃ a, Wake.first f queue abort = .ready a ∧ queue = some a) ∨
      (∃ a, Wake.first f queue abort = .aborted a ∧ abort = some a) ∨
      Wake.first f queue abort = .asleep ∧ queue = none ∧ abort = none := by
  cases queue with
  | none =>
    cases abort with
    | none => exact .inr (.inr ⟨rfl, rfl, rfl⟩)
    | some noticed => exact .inr (.inl ⟨noticed, rfl, rfl⟩)
  | some a =>
    cases abort with
    | none => exact .inl ⟨a, rfl, rfl⟩
    | some noticed =>
      -- both are there: the favour decides
      by_cases queueFirst : f.queue = true
      · exact .inl ⟨a, by rw [Wake.first, if_pos queueFirst], rfl⟩
      · exact .inr (.inl ⟨noticed, by rw [Wake.first, if_neg queueFirst], rfl⟩)

/-- What is there to abort a call. -/
def Clock.Due (c : Clock) : Abort → Prop
  | .timedOut => c.isLate = true
  | .canceled => c.fired = true

/-- Only what is there is noticed. -/
theorem Clock.due_of_abort? {c : Clock} {f : Favour} {a : Abort} (h : c.abort? f = some a) :
    c.Due a := by
  unfold abort? at h
  split at h
  · next late =>
    cases h
    exact late.1
  · split at h
    · next fired =>
      cases h
      exact fired
    · cases h

namespace Clock.Due

variable {c : Clock} {a : Abort}

/-- A signal that has been fired stays fired. -/
theorem fire (due : c.Due a) : { c with fired := true }.Due a := by
  cases a with
  | timedOut => exact due
  | canceled => rfl

/-- Time goes on only in one direction: a deadline that has passed stays passed. -/
theorem advance (t : Nanoseconds) (due : c.Due a) : { c with now := c.now + t }.Due a := by
  cases a with
  | timedOut =>
    obtain ⟨deadline, set, passed⟩ := (Option.any_eq_true _ _).mp due
    refine (Option.any_eq_true _ _).mpr ⟨deadline, set, ?_⟩
    have passed : deadline ≤ c.now := of_decide_eq_true passed
    exact decide_eq_true (Nat.le_add_right_of_le passed)
  | canceled => exact due

end Clock.Due

namespace Stream

/-- Everything that looking for the next event can come to. -/
inductive Next (s : Stream σ) : Option (Event Bytes) × Stream σ → Prop
  | pending {e rest} : s.pending = e :: rest → Next s (some e, { s with pending := rest })
  | arrived {e link} : s.pending = [] → s.arrival? = some (e, { s with link }) →
      Next s (some (s.hook.event s.memory e).1,
        { s with link, memory := (s.hook.event s.memory e).2 })
  | aborted (a) : s.pending = [] → s.clock.Due a →
      Next s (some (.fail (s.abort a).1), (s.abort a).2)
  | asleep : s.pending = [] → s.arrival? = none → Next s (none, s)

theorem arrival?_eq {s t : Stream σ} {e : Event Bytes} (h : s.arrival? = some (e, t)) :
    t = { s with link := t.link } := by
  unfold arrival? at h
  split at h
  · cases h; rfl
  · split at h
    · cases h; rfl
    · cases h

/-- Nothing that arrives changes how frames go out. -/
theorem link_of_arrival? {s t : Stream σ} {e : Event Bytes} (h : s.arrival? = some (e, t)) :
    t.link = { s.link with inbox := t.link.inbox } := by
  unfold arrival? at h
  split at h
  · cases h; rfl
  · split at h
    · cases h; rfl
    · cases h

/-- Looking for the next event comes to nothing else. -/
theorem next_nextEvent (s : Stream σ) (f : Favour) : s.Next (s.nextEvent f) := by
  unfold nextEvent
  cases hp : s.pending with
  | cons e rest => exact .pending hp
  | nil =>
    rcases Wake.first_eq f s.arrival? (s.clock.abort? f) with
      ⟨⟨e, t⟩, wake, arrived⟩ | ⟨a, wake, noticed⟩ | ⟨wake, nothing, -⟩
    · -- an arrival changes the link alone, so the hook sees the memory the stream had
      have ht := arrival?_eq arrived
      simp only [wake]
      rw [ht]
      exact .arrived hp (arrived.trans (congrArg (fun t => some (e, t)) ht))
    · simp only [wake]
      exact .aborted a hp (Clock.due_of_abort? noticed)
    · simp only [wake]
      exact .asleep hp nothing

/-- Nothing that the caller has seen changes before the event is handed out. -/
theorem Next.unchanged {s : Stream σ} {r : Option (Event Bytes) × Stream σ} (h : s.Next r) :
    r.2.completed = s.completed ∧ r.2.headers = s.headers ∧ r.2.hook = s.hook ∧
      r.2.encoding = s.encoding := by
  cases h <;> exact ⟨rfl, rfl, rfl, rfl⟩

/-- Where there is no event, nothing has changed. -/
theorem Next.eq_of_none {s t : Stream σ} (h : s.Next (none, t)) : t = s := by
  generalize hr : ((none : Option (Event Bytes)), t) = r at h
  cases h with
  | asleep _ _ =>
    cases hr
    rfl
  | pending _ => cases hr
  | arrived _ _ => cases hr
  | aborted _ _ _ => cases hr

/-! ## Sending -/

/-- What the hook makes of a message, and what it remembers then. -/
def framed {α : Type} [Message α] (s : Stream σ) (message : α) : Except Failure Bytes × σ :=
  match s.encoding.encode message with
  | .error cause => (.error cause, s.memory)
  | .ok body => s.hook.message s.memory body

/-- Everything that sending a message can come to. -/
inductive Dispatched {α : Type} [Message α] (s : Stream σ) (message : α) :
    Sending × Stream σ → Prop
  | closed : s.sending = false →
      Dispatched s message (.failed (.new .failedPrecondition "stream is closed for sending"), s)
  /-- There is no frame to send. -/
  | unframed {cause memory} : s.sending = true → s.framed message = (.error cause, memory) →
      Dispatched s message (.failed cause, { s with memory })
  /-- Nobody reads from the queue. -/
  | unread {frame memory} : s.sending = true → s.framed message = (.ok frame, memory) →
      s.link.takes = false →
      Dispatched s message (.failed (.new .unavailable "stream closed by peer"), { s with memory })
  | queued {frame memory} : s.sending = true → s.framed message = (.ok frame, memory) →
      s.link.takes = true → s.link.queue.length < s.link.capacity →
      Dispatched s message
        (.sent, { s with memory, link := { s.link with queue := s.link.queue ++ [frame] } })
  | aborted {frame memory} (a) : s.sending = true → s.framed message = (.ok frame, memory) →
      s.clock.Due a →
      Dispatched s message (.failed (abortLater { s with memory } a).1,
        (abortLater { s with memory } a).2)
  /-- The queue is full. -/
  | waiting {frame memory} : s.sending = true → s.framed message = (.ok frame, memory) →
      s.link.takes = true → s.link.capacity ≤ s.link.queue.length →
      Dispatched s message (.waiting, { s with memory })

/-- What sending does to a stream. -/
inductive Sent (s : Stream σ) : Stream σ → Prop
  | refused : Sent s s
  | asked (body link) : s.sending = true →
      Sent s { s with link, memory := (s.hook.message s.memory body).2 }
  | aborted (body a) : s.sending = true → s.clock.Due a →
      Sent s ({ s with memory := (s.hook.message s.memory body).2 }.abortLater a).2

section Sending

variable {α : Type} [Message α]

theorem send_eq (s : Stream σ) (f : Favour) (message : α) :
    s.send f message =
      if s.sending then
        match s.framed message with
        | (.error cause, memory) => (.failed cause, { s with memory })
        | (.ok frame, memory) => { s with memory }.enqueue f frame
      else (.failed (.new .failedPrecondition "stream is closed for sending"), s) := by
  unfold send framed
  cases s.encoding.encode message <;> rfl

/-- Sending comes to nothing else. -/
theorem dispatched_send (s : Stream σ) (f : Favour) (message : α) :
    s.Dispatched message (s.send f message) := by
  rw [send_eq]
  by_cases sending : s.sending = true
  · rw [if_pos sending]
    rcases framed : s.framed message with ⟨cause | frame, memory⟩
    · exact .unframed sending framed
    · simp only [enqueue]
      rcases Wake.first_eq f (place { s with memory } frame) (s.clock.abort? f) with
        ⟨⟨come, t⟩, wake, placed⟩ | ⟨a, wake, noticed⟩ | ⟨wake, full, -⟩
      · -- there is a place, or nobody to take one for
        simp only [wake]
        unfold place at placed
        split at placed
        · next gone =>
          cases placed
          exact .unread sending framed (by simpa using gone)
        · next takes =>
          split at placed
          · next room =>
            cases placed
            exact .queued sending framed (by simpa using takes) room
          · cases placed
      · simp only [wake]
        exact .aborted a sending framed (Clock.due_of_abort? noticed)
      · simp only [wake]
        unfold place at full
        split at full
        · cases full
        · next takes =>
          split at full
          · cases full
          · next room =>
            exact .waiting sending framed (by simpa using takes) (Nat.le_of_not_lt room)
  · rw [if_neg sending]
    exact .closed (by simpa using sending)

/-- The hook was not asked, or it was asked of some body. -/
theorem memory_of_framed {s : Stream σ} {message : α} {made : Except Failure Bytes} {memory : σ}
    (h : s.framed message = (made, memory)) :
    (memory = s.memory ∧ ∃ cause, made = .error cause) ∨
      ∃ body, memory = (s.hook.message s.memory body).2 := by
  unfold framed at h
  cases encoded : s.encoding.encode message with
  | error cause =>
    rw [encoded] at h
    cases h
    exact .inl ⟨rfl, cause, rfl⟩
  | ok body =>
    rw [encoded] at h
    exact .inr ⟨body, (congrArg Prod.snd h).symm⟩

theorem Dispatched.sent {s : Stream σ} {message : α} {r : Sending × Stream σ}
    (h : s.Dispatched message r) : s.Sent r.2 := by
  -- a frame was made, so the hook was asked
  have asked : ∀ {frame memory}, s.framed message = (.ok frame, memory) →
      ∃ body, memory = (s.hook.message s.memory body).2 := by
    intro frame memory framed
    rcases memory_of_framed framed with ⟨-, cause, h⟩ | h
    · cases h
    · exact h
  cases h with
  | closed _ => exact .refused
  | unframed sending framed =>
    rcases memory_of_framed framed with ⟨rfl, -⟩ | ⟨body, rfl⟩
    · exact .refused
    · exact .asked body s.link sending
  | unread sending framed _ =>
    obtain ⟨body, rfl⟩ := asked framed
    exact .asked body s.link sending
  | queued sending framed _ _ =>
    obtain ⟨body, rfl⟩ := asked framed
    exact .asked body _ sending
  | aborted a sending framed due =>
    obtain ⟨body, rfl⟩ := asked framed
    exact .aborted body a sending due
  | waiting sending framed _ _ =>
    obtain ⟨body, rfl⟩ := asked framed
    exact .asked body s.link sending

theorem sent_send (s : Stream σ) (f : Favour) (message : α) : s.Sent (s.send f message).2 :=
  (s.dispatched_send f message).sent

end Sending

/-- Sending does not change what the caller has received. -/
theorem Sent.unchanged {s t : Stream σ} (h : s.Sent t) :
    t.completed = s.completed ∧ t.headers = s.headers ∧ t.hook = s.hook ∧
      t.encoding = s.encoding := by
  cases h <;> exact ⟨rfl, rfl, rfl, rfl⟩

/-! ## One turn of receiving -/

/-- Everything that one turn of receiving can come to. -/
inductive Turned {β : Type} [Message β] (s : Stream σ) : Turn β × Stream σ → Prop
  | ended : s.completed = true → Turned s (.ended, s)
  | waiting {t} : s.completed = false → s.Next (none, t) → Turned s (.waiting, t)
  | skipped {t headers} : s.completed = false → s.Next (some (.headers headers), t) →
      t.headers ≠ none → Turned s (.skipped, t)
  | headers {t headers} : s.completed = false → s.Next (some (.headers headers), t) →
      t.headers = none → Turned s (.event (.headers headers), { t with headers := some headers })
  | supplied {t payload} : s.completed = false → s.Next (some (.message payload), t) →
      t.headers = none →
      Turned s (.event (.headers .empty),
        { t with headers := some .empty, pending := .message payload :: t.pending })
  | message {t payload message} : s.completed = false → s.Next (some (.message payload), t) →
      t.headers ≠ none → t.encoding.decode payload = .ok message →
      Turned s (.event (.message message), t)
  | unreadable {t payload cause} : s.completed = false → s.Next (some (.message payload), t) →
      t.headers ≠ none → t.encoding.decode (α := β) payload = .error cause →
      Turned s (.event (t.finish (some cause) .empty).1, (t.finish (α := β) (some cause) .empty).2)
  | complete {t cause trailers} : s.completed = false →
      s.Next (some (.complete cause trailers), t) →
      Turned s (.event (t.finish cause trailers).1, (t.finish (α := β) cause trailers).2)

/-- A turn of receiving comes to nothing else. -/
theorem turned_turn {β : Type} [Message β] (s : Stream σ) (f : Favour) :
    s.Turned (s.turn β f) := by
  unfold turn
  by_cases ended : s.completed = true
  · rw [if_pos ended]
    exact .ended ended
  · rw [if_neg ended]
    have hc : s.completed = false := by simpa using ended
    have hn := s.next_nextEvent f
    revert hn
    rcases s.nextEvent f with ⟨_ | (headers | payload | ⟨cause, trailers⟩), t⟩ <;> intro hn
    · exact .waiting hc hn
    · cases hh : t.headers with
      | none =>
        simp only [hh, Option.isSome_none]
        exact .headers hc hn hh
      | some given =>
        simp only [hh, Option.isSome_some]
        exact .skipped hc hn (by simp [hh])
    · cases hh : t.headers with
      | none =>
        simp only [hh, Option.isSome_none]
        exact .supplied hc hn hh
      | some given =>
        -- headers came before, so the payload is read now
        have hne : t.headers ≠ none := by simp [hh]
        simp only [hh, Option.isSome_some, decoded]
        cases hd : t.encoding.decode (α := β) payload with
        | ok message => exact .message hc hn hne hd
        | error cause => exact .unreadable hc hn hne hd
    · exact .complete hc hn

end Stream

end RpcWire
