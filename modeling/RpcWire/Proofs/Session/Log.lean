import RpcWire.Proofs.Session.Receive

/-!
# The log of a stream

To say what a hook made of the events of a stream, the stream is run with a hook
that also keeps a log: every event the hook was given, together with what the
hook remembered at that moment. From the log follows what the hook made of each
event (`StreamHook.made`).

Main statement: a session whose stream keeps a log shows the same as one whose
stream does not (`Session.run_logged`), so whatever is proved of the log is
proved of the stream.
-/

namespace RpcWire

variable {σ : Type}

/-- The events that a hook was given, each with what the hook remembered then. -/
abbrev EventLog (σ : Type) := List (σ × Event Bytes)

namespace StreamHook

/-- The hook, keeping a log beside its own state. -/
def logged (h : StreamHook σ) : StreamHook (σ × EventLog σ) where
  request s r := let (r, own) := h.request s.1 r; (r, own, s.2)
  message s b := let (b, own) := h.message s.1 b; (b, own, s.2)
  event s e := let (made, own) := h.event s.1 e; (made, own, s.2 ++ [(s.1, e)])

/-- What the hook made of the events of a log. -/
def made (h : StreamHook σ) (log : EventLog σ) : List (Event Bytes) :=
  log.map fun x => (h.event x.1 x.2).1

/-- The log grows by what the hook is given, together with what it remembered then. -/
theorem event_logged (h : StreamHook σ) (m : σ × EventLog σ) (e : Event Bytes) :
    h.logged.event m e =
      ((h.event m.1 e).1, (h.event m.1 e).2, m.2 ++ [(m.1, e)]) := rfl

theorem message_logged (h : StreamHook σ) (m : σ × EventLog σ) (body : Bytes) :
    h.logged.message m body = ((h.message m.1 body).1, (h.message m.1 body).2, m.2) := rfl

theorem made_append_one (h : StreamHook σ) (log : EventLog σ) (x : σ × Event Bytes) :
    h.made (log ++ [x]) = h.made log ++ [(h.event x.1 x.2).1] := by
  simp [made]

end StreamHook

namespace Stream

/-- Sending does not show in the log. -/
theorem memory_message {h : StreamHook σ} {s : Stream (σ × EventLog σ)} (hook : s.hook = h.logged)
    (body : Bytes) :
    (s.hook.message s.memory body).2 = ((h.message s.memory.1 body).2, s.memory.2) := by
  rw [hook, h.message_logged]

/-- The stream, its hook keeping a log from now on. -/
def logged (s : Stream σ) (log : EventLog σ) : Stream (σ × EventLog σ) :=
  { s with hook := s.hook.logged, memory := (s.memory, log) }

/-! ## A log changes nothing -/

variable {α : Type} [Message α]

theorem place_logged (s : Stream σ) (log : EventLog σ) (frame : Bytes) :
    (s.logged log).place frame = (s.place frame).map fun r => (r.1, r.2.logged log) := by
  have hlink : (s.logged log).link = s.link := rfl
  unfold place
  rw [hlink]
  by_cases takes : s.link.takes = true
  · by_cases room : s.link.queue.length < s.link.capacity
    · simp [takes, room, logged]
    · simp [takes, room]
  · simp [takes]

theorem enqueue_logged (s : Stream σ) (log : EventLog σ) (f : Favour) (frame : Bytes) :
    (s.logged log).enqueue f frame =
      ((s.enqueue f frame).1, (s.enqueue f frame).2.logged log) := by
  have hclock : (s.logged log).clock = s.clock := rfl
  unfold enqueue
  rw [place_logged, hclock]
  -- the room in the queue and the clock decide, and neither sees the log
  cases hp : s.place frame with
  | none => cases s.clock.abort? f <;> rfl
  | some r =>
    cases s.clock.abort? f with
    | none => rfl
    | some a =>
      by_cases queue : f.queue = true
      · simp only [Option.map_some, Wake.first, queue]
        rfl
      · simp only [Option.map_some, Wake.first, queue]
        rfl

/-- Sending is the same with and without the log. -/
theorem send_logged (s : Stream σ) (log : EventLog σ) (f : Favour) (message : α) :
    (s.logged log).send f message = ((s.send f message).1, (s.send f message).2.logged log) := by
  have hsending : (s.logged log).sending = s.sending := rfl
  have hencoding : (s.logged log).encoding = s.encoding := rfl
  unfold send
  rw [hsending, hencoding]
  by_cases open? : s.sending = true
  · rw [if_pos open?, if_pos open?]
    cases s.encoding.encode message with
    | error cause => rfl
    | ok body =>
      -- the hook keeps its log beside its own memory
      have hm : (s.logged log).hook.message (s.logged log).memory body =
          ((s.hook.message s.memory body).1, (s.hook.message s.memory body).2, log) := rfl
      simp only [hm]
      rcases s.hook.message s.memory body with ⟨_ | frame, memory⟩
      · rfl
      · exact enqueue_logged { s with memory } log f frame
  · rw [if_neg open?, if_neg open?]

theorem arrival?_logged (s : Stream σ) (log : EventLog σ) :
    (s.logged log).arrival? = s.arrival?.map fun r => (r.1, r.2.logged log) := by
  -- the inbox and whether anyone still listens decide, fields that both streams share
  obtain ⟨hook, encoding, memory, phase, headers, pending, completed, sending, listening, link,
    clock⟩ := s
  obtain ⟨capacity, queue, takes, inbox, hungUp⟩ := link
  cases inbox with
  | nil => cases hungUp <;> cases listening <;> rfl
  | cons e rest => rfl

/-- Looking for the next event is the same but for the log. -/
theorem nextEvent_logged (s : Stream σ) (log : EventLog σ) (f : Favour) :
    ∃ log', (s.logged log).nextEvent f =
      ((s.nextEvent f).1, (s.nextEvent f).2.logged log') := by
  have hpending : (s.logged log).pending = s.pending := rfl
  have hclock : (s.logged log).clock = s.clock := rfl
  unfold nextEvent
  rw [hpending, arrival?_logged, hclock]
  cases s.pending with
  | cons e rest => exact ⟨log, rfl⟩
  | nil =>
    simp only
    cases s.arrival? with
    | none => cases s.clock.abort? f <;> exact ⟨log, rfl⟩
    | some r =>
      cases s.clock.abort? f with
      -- only what the transport delivered reaches the hook: here the log grows
      | none => exact ⟨log ++ [(r.2.memory, r.1)], rfl⟩
      | some a =>
        by_cases queue : f.queue = true
        · simp only [Option.map_some, Wake.first, queue, if_true]
          exact ⟨log ++ [(r.2.memory, r.1)], rfl⟩
        · simp only [Option.map_some, Wake.first, queue]
          -- the abort comes first, and the event waits in the inbox unseen
          exact ⟨log, rfl⟩

theorem turn_logged (s : Stream σ) (log : EventLog σ) (f : Favour) :
    ∃ log', (s.logged log).turn α f = ((s.turn α f).1, (s.turn α f).2.logged log') := by
  have hcompleted : (s.logged log).completed = s.completed := rfl
  obtain ⟨log', hn⟩ := s.nextEvent_logged log f
  unfold turn
  rw [hn, hcompleted]
  by_cases ended : s.completed = true
  · rw [if_pos ended, if_pos ended]
    exact ⟨log, rfl⟩
  · rw [if_neg ended, if_neg ended]
    rcases s.nextEvent f with ⟨_ | (headers | payload | ⟨cause, trailers⟩), t⟩
    · exact ⟨log', rfl⟩
    · have hheaders : (t.logged log').headers = t.headers := rfl
      simp only [hheaders]
      -- headers are shown once; after that the turn is skipped
      split <;> exact ⟨log', rfl⟩
    · have hheaders : (t.logged log').headers = t.headers := rfl
      have hdecoded : (t.logged log').decoded (α := α) payload =
          ((t.decoded payload).1, (t.decoded (α := α) payload).2.logged log') := by
        have hencoding : (t.logged log').encoding = t.encoding := rfl
        unfold decoded
        rw [hencoding]
        cases t.encoding.decode (α := α) payload <;> rfl
      simp only [hheaders, hdecoded]
      split <;> exact ⟨log', rfl⟩
    · exact ⟨log', rfl⟩

/-! Loops with and without a log come back together, with the same. -/

/-- What can be received can be received while a log is kept. -/
theorem Receives.logged {f : Favour} {s t : Stream σ} {r : Receiving α}
    (receives : Receives f s r t) (log : EventLog σ) :
    ∃ log', Receives f (s.logged log) r (t.logged log') := by
  have keep : ∀ {s t : Stream σ} {come : Turn α} (log : EventLog σ), s.turn α f = (come, t) →
      ∃ log', (s.logged log).turn α f = (come, t.logged log') := by
    intro s t come log turn
    obtain ⟨log', same⟩ := s.turn_logged (α := α) log f
    exact ⟨log', by rw [same, turn]⟩
  induction receives generalizing log with
  | event turn =>
    obtain ⟨log', turn⟩ := keep log turn
    exact ⟨log', .event turn⟩
  | skipped turn _ ih =>
    obtain ⟨log', turn⟩ := keep log turn
    obtain ⟨last, later⟩ := ih log'
    exact ⟨last, .skipped turn later⟩
  | waiting turn =>
    obtain ⟨log', turn⟩ := keep log turn
    exact ⟨log', .waiting turn⟩
  | ended turn =>
    obtain ⟨log', turn⟩ := keep log turn
    exact ⟨log', .ended turn⟩

/-- What is received while a log is kept could have been received without it. -/
theorem Receives.of_logged {f : Favour} {s : Stream σ} {log : EventLog σ}
    {u : Stream (σ × EventLog σ)} {r : Receiving α} (receives : Receives f (s.logged log) r u) :
    ∃ t log', u = t.logged log' ∧ Receives f s r t := by
  have forget : ∀ {s : Stream σ} {log : EventLog σ} {u : Stream (σ × EventLog σ)} {come : Turn α},
      (s.logged log).turn α f = (come, u) →
        ∃ t log', u = t.logged log' ∧ s.turn α f = (come, t) := by
    intro s log u come turn
    obtain ⟨log', same⟩ := s.turn_logged (α := α) log f
    obtain ⟨rfl, rfl⟩ := Prod.mk.inj (same.symm.trans turn)
    exact ⟨_, log', rfl, rfl⟩
  generalize begun : s.logged log = s' at receives
  induction receives generalizing s log with
  | event turn =>
    subst begun
    obtain ⟨t, log', rfl, same⟩ := forget turn
    exact ⟨t, log', rfl, .event same⟩
  | skipped turn _ ih =>
    subst begun
    obtain ⟨t, log', rfl, same⟩ := forget turn
    obtain ⟨v, last, rfl, later⟩ := ih rfl
    exact ⟨v, last, rfl, .skipped same later⟩
  | waiting turn =>
    subst begun
    obtain ⟨t, log', rfl, same⟩ := forget turn
    exact ⟨t, log', rfl, .waiting same⟩
  | ended turn =>
    subst begun
    obtain ⟨t, log', rfl, same⟩ := forget turn
    exact ⟨t, log', rfl, .ended same⟩

section Gathering

variable {γ : Type} {take : γ → Receiving α → γ} {more : γ → Bool} {f : Favour} {g : γ}
  {rs : List (Receiving α)} {s t : Stream σ}

theorem Gathers.logged (gathers : Gathers take more f g s rs t) (log : EventLog σ) :
    ∃ log', Gathers take more f g (s.logged log) rs (t.logged log') := by
  induction gathers generalizing log with
  | last receives stops =>
    obtain ⟨log', receives⟩ := receives.logged log
    exact ⟨log', .last receives stops⟩
  | next receives event goes _ ih =>
    obtain ⟨log', receives⟩ := receives.logged log
    obtain ⟨last, later⟩ := ih log'
    exact ⟨last, .next receives event goes later⟩

theorem Gathers.of_logged {log : EventLog σ} {u : Stream (σ × EventLog σ)}
    (gathers : Gathers take more f g (s.logged log) rs u) :
    ∃ t log', u = t.logged log' ∧ Gathers take more f g s rs t := by
  generalize begun : s.logged log = s' at gathers
  induction gathers generalizing s log with
  | last receives stops =>
    subst begun
    obtain ⟨t, log', rfl, first⟩ := receives.of_logged
    exact ⟨t, log', rfl, .last first stops⟩
  | next receives event goes _ ih =>
    subst begun
    obtain ⟨t, log', rfl, first⟩ := receives.of_logged
    obtain ⟨v, last, rfl, later⟩ := ih rfl
    exact ⟨v, last, rfl, .next first event goes later⟩

/-- Receiving again and again is the same but for the log, also where it has no end. -/
theorem gather_logged (take : γ → Receiving α → γ) (more : γ → Bool) (g : γ) (s : Stream σ)
    (log : EventLog σ) (f : Favour) :
    ∃ log', (s.logged log).gather take more g f =
      (s.gather take more g f).map fun r => (r.1, r.2.logged log') := by
  rcases plain : s.gather take more g f with _ | ⟨made, t⟩
  · rcases logged : (s.logged log).gather take more g f with _ | ⟨made, u⟩
    · exact ⟨log, rfl⟩
    · obtain ⟨rs, gathers, same⟩ := gather_eq_some_iff.mp logged
      obtain ⟨t, log', -, gathers⟩ := gathers.of_logged
      rw [gather_eq_some_iff.mpr ⟨rs, gathers, same⟩] at plain
      cases plain
  · obtain ⟨rs, gathers, same⟩ := gather_eq_some_iff.mp plain
    obtain ⟨log', gathers⟩ := gathers.logged log
    exact ⟨log', gather_eq_some_iff.mpr ⟨rs, gathers, same⟩⟩

end Gathering

theorem receive_logged (s : Stream σ) (log : EventLog σ) (f : Favour) :
    ∃ log', (s.logged log).receive α f =
      (s.receive α f).map fun r => (r.1, r.2.logged log') := by
  rcases plain : s.receive α f with _ | ⟨r, t⟩
  · rcases logged : (s.logged log).receive α f with _ | ⟨r, u⟩
    · exact ⟨log, rfl⟩
    · obtain ⟨t, log', -, receives⟩ := (receive_eq_some_iff.mp logged).of_logged
      rw [receive_eq_some_iff.mpr receives] at plain
      cases plain
  · obtain ⟨log', receives⟩ := (receive_eq_some_iff.mp plain).logged log
    exact ⟨log', receive_eq_some_iff.mpr receives⟩

end Stream

namespace Session

/-- The session, its stream keeping a log from now on. -/
def logged (s : Session σ) (log : EventLog σ) : Session (σ × EventLog σ) :=
  ⟨s.stream.logged log, s.held⟩

theorem start_logged (s : Stream σ) (log : EventLog σ) :
    start (s.logged log) = (start s).logged log := rfl

variable {α β : Type} [Message α] [Message β]

theorem performHeld_logged (s : Stream σ) (log : EventLog σ) (f : Favour) (a : CallerAction α) :
    ∃ log', performHeld β (s.logged log) f a =
      ((performHeld β s f a).1, (performHeld β s f a).2.logged log') := by
  cases a with
  | send message =>
    simp only [performHeld, s.send_logged log f message]
    rcases s.send f message with ⟨_ | _ | _, t⟩ <;> exact ⟨log, rfl⟩
  | receive =>
    obtain ⟨log', hr⟩ := s.receive_logged (α := β) log f
    simp only [performHeld, hr]
    rcases s.receive β f with _ | ⟨r, t⟩
    · exact ⟨log, rfl⟩
    · exact ⟨log', rfl⟩
  | cancel =>
    have hcompleted : (s.logged log).completed = s.completed := rfl
    simp only [performHeld, Stream.cancel, hcompleted]
    split <;> exact ⟨log, rfl⟩
  | closeAndReceive =>
    obtain ⟨log', hg⟩ := s.closeSend.gather_logged (Gathered.take (α := β))
      (fun g => g.reply.isNone)
      Gathered.empty log f
    have closed : (s.logged log).closeSend = s.closeSend.logged log := rfl
    simp only [performHeld, Stream.awaitReply, closed, hg]
    rcases s.closeSend.gather Gathered.take _ Gathered.empty f with _ | ⟨⟨_, _, _, _ | r⟩, t⟩
    · exact ⟨log, rfl⟩
    · exact ⟨log', rfl⟩
    · exact ⟨log', rfl⟩
  | collect =>
    obtain ⟨log', hg⟩ := s.gather_logged (Stream.Drained.take (α := β)) (fun _ => true) ⟨[], false⟩
      log f
    simp only [performHeld, Stream.drain, hg]
    rcases s.gather Stream.Drained.take _ ⟨[], false⟩ f with _ | ⟨⟨es, _ | _⟩, t⟩
    · exact ⟨log, rfl⟩
    · exact ⟨log', rfl⟩
    · exact ⟨log', rfl⟩
  | closeSend => exact ⟨log, rfl⟩
  | headers => exact ⟨log, rfl⟩
  | drop => exact ⟨log, rfl⟩

/-- Every action is the same but for the log. -/
theorem perform_logged (s : Session σ) (log : EventLog σ) (f : Favour) (a : Action α) :
    ∃ log', (s.logged log).perform β f a =
      ((s.perform β f a).1, (s.perform β f a).2.logged log') := by
  have takeFrames : ∀ limit, (s.logged log).perform (α := α) β f (.takeFrames limit) =
      ((s.perform (α := α) β f (.takeFrames limit)).1,
        (s.perform (α := α) β f (.takeFrames limit)).2.logged log) := by
    intro limit
    obtain ⟨⟨_, _, _, _, _, _, _, _, _, ⟨_, _, takes, _, _⟩, _⟩, held⟩ := s
    cases takes <;> rfl
  cases a with
  | caller a =>
    have hheld : (s.logged log).held = s.held := rfl
    simp only [perform, hheld]
    by_cases held : s.held = true
    · rw [if_pos held, if_pos held]
      exact performHeld_logged s.stream log f a
    · rw [if_neg held, if_neg held]
      exact ⟨log, rfl⟩
  | deliver e =>
    refine ⟨log, ?_⟩
    obtain ⟨⟨_, _, _, _, _, _, _, _, listening, ⟨_, _, _, _, hungUp⟩, _⟩, held⟩ := s
    cases listening <;> cases hungUp <;> rfl
  | takeBody => exact ⟨log, takeFrames s.stream.link.queue.length⟩
  | takeFrames limit => exact ⟨log, takeFrames limit⟩
  | hangUp => exact ⟨log, rfl⟩
  | dropBody => exact ⟨log, rfl⟩
  | fire => exact ⟨log, rfl⟩
  | advance t => exact ⟨log, rfl⟩

/-- A session that keeps a log shows the same as one that does not. -/
theorem run_logged (s : Session σ) (log : EventLog σ) (actions : List (Favour × Action α)) :
    ∃ log', (s.logged log).run β actions =
      ((s.run β actions).1, (s.run β actions).2.logged log') := by
  induction actions generalizing s log with
  | nil => exact ⟨log, rfl⟩
  | cons fa rest ih =>
    obtain ⟨f, action⟩ := fa
    obtain ⟨log', hp⟩ := s.perform_logged (β := β) log f action
    obtain ⟨log'', hr⟩ := ih (s.perform β f action).2 log'
    simp only [run, hp, hr]
    exact ⟨log'', rfl⟩

end Session

end RpcWire
