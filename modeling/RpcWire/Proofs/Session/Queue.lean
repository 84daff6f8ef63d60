import RpcWire.Proofs.Session.Shut

/-!
# Where the frames of a stream go

A send that succeeds puts one frame into the queue, behind all others, and no
other send leaves anything there (`Session.perform_send`). Frames leave the
queue in the same order, when the transport takes them, or all at once when it
drops its end. So everything that was accepted has been taken, has been
discarded with the transport's end, or is still queued
(`Session.queue_accounted`, by induction from one action): none is lost or
doubled in any other way.

The transport may indeed drop its end with frames in the queue, of which the
caller has been told that they were sent (`sent_discarded`).

* `sends_accounted`: what becomes of everything that a caller sends;
* `Session.Shut`: nothing more can be sent, which never changes.
-/

namespace RpcWire

variable {σ : Type}

/-! ## What is sent, taken and discarded -/

/-- The frames that an observation shows to be taken by the transport. -/
def Observation.frames {β : Type} : Observation β → List Bytes
  | .body frames _ => frames
  | _ => []

def taken {β : Type} (seen : List (Observation β)) : List Bytes :=
  seen.flatMap Observation.frames

namespace Session

/-- The frames that are discarded when the transport drops its end. -/
def discards {α : Type} (s : Session σ) : Action α → List Bytes
  | .dropBody => s.stream.link.queue
  | _ => []

variable {α : Type} [Message α] (β : Type) [Message β]

/-- The frame that the hook makes of a message, if it is seen to be sent. -/
def accepts (s : Session σ) (f : Favour) : Action α → List Bytes
  | .caller (.send message) =>
    match (s.perform (α := α) β f (.caller (.send message))).1, (s.stream.framed message).1 with
    | .sent (.ok ()), .ok frame => [frame]
    | _, _ => []
  | _ => []

/-- The frames of all sends that are seen to succeed. -/
def accepted (s : Session σ) : List (Favour × Action α) → List Bytes
  | [] => []
  | (f, a) :: rest => s.accepts β f a ++ accepted (s.perform β f a).2 rest

/-- The frames that are discarded with the transport's end. -/
def discarded (s : Session σ) : List (Favour × Action α) → List Bytes
  | [] => []
  | (f, a) :: rest => s.discards a ++ discarded (s.perform β f a).2 rest

end Session

/-! ## Receiving -/

namespace Stream

/-- Frames wait as they did before, and are taken as before. -/
def SameQueue (s t : Stream σ) : Prop :=
  t.link.queue = s.link.queue ∧ t.link.takes = s.link.takes

variable {s t : Stream σ}

theorem SameQueue.trans {u : Stream σ} (h : s.SameQueue t) (k : t.SameQueue u) : s.SameQueue u :=
  ⟨k.1.trans h.1, k.2.trans h.2⟩

theorem Next.sameQueue {r : Option (Event Bytes) × Stream σ} (h : s.Next r) : s.SameQueue r.2 := by
  cases h with
  | pending _ => exact ⟨rfl, rfl⟩
  | @arrived e link _ arrived =>
    have same : link = { s.link with inbox := link.inbox } := link_of_arrival? arrived
    constructor
    · show link.queue = s.link.queue
      rw [same]
    · show link.takes = s.link.takes
      rw [same]
  | aborted _ _ => exact ⟨rfl, rfl⟩
  | asleep _ _ => exact ⟨rfl, rfl⟩

variable {β : Type} [Message β]

/-- Receiving does not touch the queue of frames. -/
theorem Turned.sameQueue {r : Turn β × Stream σ} (h : s.Turned r) : s.SameQueue r.2 := by
  cases h with
  | ended _ => exact ⟨rfl, rfl⟩
  | waiting _ next => exact next.sameQueue
  | skipped _ next _ => exact next.sameQueue
  | headers _ next _ => exact next.sameQueue
  | supplied _ next _ => exact next.sameQueue
  | message _ next _ _ => exact next.sameQueue
  | unreadable _ next _ _ => exact next.sameQueue
  | complete _ next => exact next.sameQueue

theorem Receives.sameQueue {f : Favour} {r : Receiving β} (receives : Receives f s r t) :
    s.SameQueue t :=
  @Receives.keeps σ β _ (fun t _ => s.SameQueue t) s t [] f
    (fun same turned => same.trans turned.sameQueue) r receives ⟨rfl, rfl⟩

theorem Gathers.sameQueue {γ : Type} {take : γ → Receiving β → γ} {more : γ → Bool} {f : Favour}
    {g : γ} {rs : List (Receiving β)} (gathers : Gathers take more f g s rs t) : s.SameQueue t :=
  @Gathers.keeps σ β γ _ (fun t _ => s.SameQueue t) s t [] f
    (fun same turned => same.trans turned.sameQueue) take more g rs gathers ⟨rfl, rfl⟩

omit [Message β] in
theorem sameQueue_cancel (s : Stream σ) : s.SameQueue s.cancel := by
  unfold cancel
  split <;> exact ⟨rfl, rfl⟩

/-- A send that succeeds puts the frame of its message behind all others; any other leaves the
queues alone. -/
theorem Dispatched.link {α : Type} [Message α] {message : α} {r : Sending × Stream σ}
    (h : s.Dispatched message r) :
    (r.1 = .sent ∧ s.link.takes = true ∧ ∃ frame, (s.framed message).1 = .ok frame ∧
        r.2.link = { s.link with queue := s.link.queue ++ [frame] }) ∨
      r.1 ≠ .sent ∧ r.2.link = s.link := by
  cases h with
  | queued _ framed takes _ => exact .inl ⟨rfl, takes, _, by rw [framed], rfl⟩
  | closed _ => exact .inr ⟨nofun, rfl⟩
  | unframed _ _ => exact .inr ⟨nofun, rfl⟩
  | unread _ _ _ => exact .inr ⟨nofun, rfl⟩
  | aborted _ _ _ => exact .inr ⟨nofun, rfl⟩
  | waiting _ _ _ _ => exact .inr ⟨nofun, rfl⟩

end Stream

/-! ## One action -/

namespace Session

variable {α β : Type} [Message α] [Message β]

/-- What sending is seen to come to, and what it does to the queues. -/
theorem perform_send {s : Session σ} (held : s.held = true) (f : Favour) (message : α) :
    let after := s.perform (α := α) β f (.caller (.send message))
    (after.1 = .sent (.ok ()) ∧ s.stream.link.takes = true ∧
        ∃ frame, (s.stream.framed message).1 = .ok frame ∧
          after.2.stream.link =
            { s.stream.link with queue := s.stream.link.queue ++ [frame] }) ∨
      ((∃ cause, after.1 = .sent (.error cause)) ∨ after.1 = .waiting) ∧
        after.2.stream.link = s.stream.link := by
  have link := (s.stream.dispatched_send f message).link
  simp only [perform, if_pos held, performHeld]
  generalize s.stream.send f message = r at link ⊢
  obtain ⟨_ | cause | _, t⟩ := r
  · rcases link with ⟨-, takes, frame, framed, link⟩ | ⟨unsent, -⟩
    · exact .inl ⟨rfl, takes, frame, framed, link⟩
    · exact absurd rfl unsent
  · rcases link with ⟨sent, -⟩ | ⟨-, link⟩
    · cases sent
    · exact .inr ⟨.inl ⟨cause, rfl⟩, link⟩
  · rcases link with ⟨sent, -⟩ | ⟨-, link⟩
    · cases sent
    · exact .inr ⟨.inr rfl, link⟩

/-- Whatever else a caller does, it leaves the queue as it is, and shows no frames. -/
theorem performHeld_sameQueue (s : Stream σ) (f : Favour) {a : CallerAction α}
    (other : ∀ message, a ≠ .send message) :
    s.SameQueue (performHeld β s f a).2.stream ∧ (performHeld β s f a).1.frames = [] := by
  cases a with
  | send message => exact absurd rfl (other message)
  | closeSend => exact ⟨⟨rfl, rfl⟩, rfl⟩
  | headers => exact ⟨⟨rfl, rfl⟩, rfl⟩
  | drop => exact ⟨⟨rfl, rfl⟩, rfl⟩
  | cancel => exact ⟨s.sameQueue_cancel, rfl⟩
  | receive =>
    rcases performHeld_receive (α := α) (β := β) s f with ⟨r, t, receives, seen⟩ | seen <;>
      rw [seen]
    · cases r <;> exact ⟨receives.sameQueue, rfl⟩
    · exact ⟨⟨rfl, rfl⟩, rfl⟩
  | closeAndReceive =>
    rcases performHeld_closeAndReceive (α := α) (β := β) s f with ⟨rs, t, gathers, seen⟩ | seen <;>
      rw [seen]
    · cases (rs.foldl Gathered.take Gathered.empty).reply <;> exact ⟨gathers.sameQueue, rfl⟩
    · exact ⟨⟨rfl, rfl⟩, rfl⟩
  | collect =>
    rcases performHeld_collect (α := α) (β := β) s f with ⟨rs, t, gathers, seen | seen⟩ | seen <;>
      rw [seen]
    · exact ⟨gathers.sameQueue, rfl⟩
    · exact ⟨gathers.sameQueue, rfl⟩
    · exact ⟨⟨rfl, rfl⟩, rfl⟩

/-- What one action does to the queue. -/
structure Accounted (s : Session σ) (f : Favour) (a : Action α) : Prop where
  /-- What was queued, and then what is accepted, is taken, or discarded, or queued afterwards. -/
  queue : s.stream.link.queue ++ s.accepts β f a =
    (s.perform β f a).1.frames ++ s.discards a ++ (s.perform β f a).2.stream.link.queue
  /-- A transport that takes no more frames takes none now and never will. -/
  gone : s.stream.link.takes = false →
    (s.perform β f a).1.frames = [] ∧ s.accepts β f a = [] ∧
      (s.perform β f a).2.stream.link.takes = false
  /-- Frames are discarded together with the transport's end. -/
  dropped : s.discards a ≠ [] → (s.perform β f a).2.stream.link.takes = false
  /-- A transport that drops its end leaves nothing in the queue. -/
  emptied : s.stream.link.takes = true → (s.perform β f a).2.stream.link.takes = false →
    (s.perform β f a).2.stream.link.queue = []

/-- An action that leaves the queue as it is, with no frame to show for it. -/
theorem Accounted.of_sameQueue {s : Session σ} {f : Favour} {a : Action α}
    (same : s.stream.SameQueue (s.perform β f a).2.stream)
    (frames : (s.perform β f a).1.frames = []) (accepts : s.accepts β f a = [])
    (discards : s.discards a = []) : s.Accounted (β := β) f a where
  queue := by rw [frames, accepts, discards, same.1, List.append_nil, List.nil_append]; rfl
  gone takes := ⟨frames, accepts, same.2.trans takes⟩
  dropped some := absurd discards some
  emptied takes gone := by
    have still : (s.perform β f a).2.stream.link.takes = true := same.2.trans takes
    rw [still] at gone
    cases gone

/-- Sending adds one frame or none, and says which. -/
theorem accounted_send (s : Session σ) (f : Favour) (message : α) :
    s.Accounted (β := β) f (.caller (.send message)) := by
  by_cases held : s.held = true
  · have unseen : (s.perform β f (.caller (.send message) : Action α)).1.frames = [] := by
      rcases perform_send (β := β) held f message with ⟨seen, -⟩ | ⟨⟨cause, seen⟩ | seen, -⟩ <;>
        rw [seen] <;> rfl
    rcases perform_send (β := β) held f message with
      ⟨seen, takes, frame, framed, link⟩ | ⟨seen, link⟩
    · have accepts : s.accepts β f (.caller (.send message)) = [frame] := by
        simp only [Session.accepts, seen, framed]
      constructor
      · rw [unseen, accepts, link]
        rfl
      · intro gone
        rw [takes] at gone
        cases gone
      · intro some
        exact absurd rfl some
      · intro _ gone
        rw [link] at gone
        cases takes.symm.trans gone
    · have accepts : s.accepts β f (.caller (.send message)) = [] := by
        rcases seen with ⟨cause, seen⟩ | seen <;> simp only [Session.accepts, seen]
      exact .of_sameQueue ⟨by rw [link], by rw [link]⟩ unseen accepts rfl
  · have closed : s.perform β f (.caller (.send message) : Action α) = (.closed, s) := if_neg held
    have accepts : s.accepts β f (.caller (.send message)) = [] := by
      simp only [Session.accepts, closed]
    exact .of_sameQueue (by rw [closed]; exact ⟨rfl, rfl⟩) (by rw [closed]; rfl) accepts rfl

/-- The transport takes frames from the front, each once. -/
theorem accounted_takeFrames (s : Session σ) (f : Favour) (limit : Nat) :
    s.Accounted (α := α) (β := β) f (.takeFrames limit) := by
  by_cases takes : s.stream.link.takes = true
  · constructor
    · simp [perform, takeFrames, takes, Session.accepts, discards, Observation.frames, relink]
    · intro gone
      rw [takes] at gone
      cases gone
    · intro some
      exact absurd rfl some
    · intro _ gone
      have still : (s.perform (α := α) β f (.takeFrames limit)).2.stream.link.takes = true := by
        simp [perform, takeFrames, takes, relink]
      rw [still] at gone
      cases gone
  · -- the transport is gone, and takes nothing
    refine .of_sameQueue ?_ ?_ rfl rfl <;> simp only [perform, takeFrames, if_neg takes]
    · exact ⟨rfl, rfl⟩
    · rfl

/-- Every action leaves a queue that is accounted for. -/
theorem accounted (s : Session σ) (f : Favour) (a : Action α) : s.Accounted (β := β) f a := by
  cases a with
  | caller a =>
    by_cases sends : ∃ message, a = .send message
    · obtain ⟨message, rfl⟩ := sends
      exact s.accounted_send f message
    · have other : ∀ message, a ≠ .send message := fun message is => sends ⟨message, is⟩
      have accepts : s.accepts β f (.caller a) = [] := by
        cases a with
        | send message => exact absurd rfl (other message)
        | _ => rfl
      by_cases held : s.held = true
      · have performed : s.perform β f (.caller a) = performHeld β s.stream f a := if_pos held
        obtain ⟨same, frames⟩ := performHeld_sameQueue (β := β) s.stream f other
        exact .of_sameQueue (performed ▸ same) (performed ▸ frames) accepts rfl
      · have closed : s.perform β f (.caller a) = (.closed, s) := if_neg held
        exact .of_sameQueue (by rw [closed]; exact ⟨rfl, rfl⟩) (by rw [closed]; rfl) accepts rfl
  | deliver e =>
    refine .of_sameQueue ?_ rfl rfl rfl
    simp only [perform, deliver]
    split <;> exact ⟨rfl, rfl⟩
  | takeBody =>
    have all := s.accounted_takeFrames (α := α) (β := β) f s.stream.link.queue.length
    exact ⟨all.queue, all.gone, all.dropped, all.emptied⟩
  | takeFrames limit => exact s.accounted_takeFrames f limit
  | dropBody =>
    constructor
    · simp [perform, Session.accepts, discards, Observation.frames, relink]
    · intro _
      exact ⟨rfl, rfl, rfl⟩
    · intro _
      rfl
    · intro _ _
      rfl
  | hangUp => exact .of_sameQueue ⟨rfl, rfl⟩ rfl rfl rfl
  | fire => exact .of_sameQueue ⟨rfl, rfl⟩ rfl rfl rfl
  | advance t => exact .of_sameQueue ⟨rfl, rfl⟩ rfl rfl rfl

/-! ## Whole sessions -/

/-- A transport that has dropped its end takes no frame, and no send succeeds. -/
theorem run_gone {s : Session σ} (gone : s.stream.link.takes = false)
    (actions : List (Favour × Action α)) :
    taken (s.run β actions).1 = [] ∧ s.accepted β actions = [] ∧
      (s.run β actions).2.stream.link.takes = false := by
  induction actions generalizing s with
  | nil => exact ⟨rfl, rfl, gone⟩
  | cons fa rest ih =>
    obtain ⟨f, a⟩ := fa
    obtain ⟨frames, accepts, still⟩ := (s.accounted (β := β) f a).gone gone
    obtain ⟨later, more, after⟩ := ih still
    refine ⟨?_, ?_, after⟩
    · show (s.perform β f a).1.frames ++ _ = _
      rw [frames]
      exact later
    · show s.accepts β f a ++ _ = _
      rw [accepts]
      exact more

/-- What was queued and what was accepted since has been taken, has been discarded, or is queued
still, in this order. -/
theorem queue_accounted (s : Session σ) (actions : List (Favour × Action α)) :
    s.stream.link.queue ++ s.accepted β actions =
      taken (s.run β actions).1 ++ s.discarded β actions ++
        (s.run β actions).2.stream.link.queue := by
  induction actions generalizing s with
  | nil => simp [accepted, discarded, run, taken]
  | cons fa rest ih =>
    obtain ⟨f, a⟩ := fa
    have now := s.accounted (β := β) f a
    have later := ih (s.perform β f a).2
    -- what is taken later comes behind what is discarded now, so one of them has to be nothing
    have apart : s.discards a ++ taken ((s.perform β f a).2.run β rest).1 =
        taken ((s.perform β f a).2.run β rest).1 ++ s.discards a := by
      by_cases dropped : s.discards a = []
      · rw [dropped, List.nil_append, List.append_nil]
      · rw [(run_gone (now.dropped dropped) rest).1, List.nil_append, List.append_nil]
    calc s.stream.link.queue ++ s.accepted β ((f, a) :: rest)
        = s.stream.link.queue ++ s.accepts β f a ++ (s.perform β f a).2.accepted β rest := by
          rw [accepted, List.append_assoc]
      _ = (s.perform β f a).1.frames ++ s.discards a ++
            ((s.perform β f a).2.stream.link.queue ++ (s.perform β f a).2.accepted β rest) := by
          rw [now.queue, List.append_assoc _ _ ((s.perform β f a).2.accepted β rest)]
      _ = (s.perform β f a).1.frames ++ (s.discards a ++
            taken ((s.perform β f a).2.run β rest).1) ++
            (s.perform β f a).2.discarded β rest ++
            ((s.perform β f a).2.run β rest).2.stream.link.queue := by
          rw [later]
          simp only [List.append_assoc]
      _ = taken (s.run β ((f, a) :: rest)).1 ++ s.discarded β ((f, a) :: rest) ++
            (s.run β ((f, a) :: rest)).2.stream.link.queue := by
          rw [apart]
          simp only [run, taken, discarded, List.flatMap_cons, List.append_assoc]

/-- A transport that keeps its end discards nothing. -/
theorem discarded_eq_nil (s : Session σ) {actions : List (Favour × Action α)}
    (kept : ∀ f, (f, .dropBody) ∉ actions) : s.discarded β actions = [] := by
  induction actions generalizing s with
  | nil => rfl
  | cons fa rest ih =>
    obtain ⟨f, a⟩ := fa
    have later := ih (s.perform β f a).2 fun g there => kept g (List.mem_cons_of_mem _ there)
    have now : s.discards a = [] := by
      cases a with
      | dropBody => exact absurd List.mem_cons_self (kept f)
      | _ => rfl
    rw [discarded, now, later]
    rfl

/-- Once the transport has dropped its end, nothing is queued any more. -/
theorem run_emptied {s : Session σ}
    (empty : s.stream.link.takes = false → s.stream.link.queue = [])
    (actions : List (Favour × Action α)) :
    (s.run β actions).2.stream.link.takes = false → (s.run β actions).2.stream.link.queue = [] := by
  induction actions generalizing s with
  | nil => exact empty
  | cons fa rest ih =>
    obtain ⟨f, a⟩ := fa
    have now := s.accounted (β := β) f a
    apply ih
    intro gone
    cases takes : s.stream.link.takes with
    | true => exact now.emptied takes gone
    | false =>
      have queue := now.queue
      rw [empty takes, (now.gone takes).2.1] at queue
      exact (List.append_eq_nil_iff.mp queue.symm).2

/-- Frames are discarded only when the transport gives the queue up, which it does for good. -/
theorem gone_of_discarded {s : Session σ} {actions : List (Favour × Action α)}
    (dropped : s.discarded β actions ≠ []) : (s.run β actions).2.stream.link.takes = false := by
  induction actions generalizing s with
  | nil => exact absurd rfl dropped
  | cons fa rest ih =>
    obtain ⟨f, a⟩ := fa
    by_cases now : s.discards a = []
    · apply ih
      rwa [discarded, now] at dropped
    · exact (run_gone ((s.accounted (β := β) f a).dropped now) rest).2.2

end Session

variable {α β : Type} [Message α] [Message β]

/-- What becomes of everything that a caller sends. The frames of the sends that succeeded are, in
order, those that the transport has taken, those that it left in the queue when it dropped its end,
and those that are queued still; there are none of the second kind unless it dropped its end, and
then none of the third. A send that fails or has to wait adds nothing. When sending is over, every
further send fails as one that came too late, and changes nothing. -/
theorem sends_accounted {s : Stream σ} (fresh : s.Fresh) (unsent : s.link.queue = [])
    (actions : List (Favour × Action α)) {seen : List (Observation β)} {t : Session σ}
    (run : (Session.start s).run β actions = (seen, t)) :
    ((Session.start s).accepted β actions =
        taken seen ++ (Session.start s).discarded β actions ++ t.stream.link.queue ∧
      ((∀ f, (f, .dropBody) ∉ actions) → (Session.start s).discarded β actions = []) ∧
      ((Session.start s).discarded β actions ≠ [] →
        t.stream.link.takes = false ∧ t.stream.link.queue = [])) ∧
    (t.held = true → ∀ (f : Favour) (message : α),
      let after := t.perform (α := α) β f (.caller (.send message))
      (after.1 = .sent (.ok ()) ∧ t.stream.link.takes = true ∧
          ∃ frame, (t.stream.framed message).1 = .ok frame ∧
            after.2.stream.link =
              { t.stream.link with queue := t.stream.link.queue ++ [frame] }) ∨
        ((∃ cause, after.1 = .sent (.error cause)) ∨ after.1 = .waiting) ∧
          after.2.stream.link = t.stream.link) ∧
    (t.Over actions seen → ∀ (later : List (Favour × Action α)) (f : Favour) (message : α),
      (t.run β later).2.perform (α := α) β f (.caller (.send message)) =
        (if (t.run β later).2.held then
            .sent (.error (.new .failedPrecondition "stream is closed for sending"))
          else .closed, (t.run β later).2)) := by
  refine ⟨⟨?_, Session.discarded_eq_nil _, ?_⟩, ?_, ?_⟩
  · have all := (Session.start s).queue_accounted (β := β) actions
    rw [run, show (Session.start s).stream.link.queue = [] from unsent] at all
    exact all
  · intro dropped
    have gone := Session.gone_of_discarded dropped
    have emptied := Session.run_emptied (s := .start s) (β := β) (fun _ => unsent) actions
    rw [run] at gone emptied
    exact ⟨gone, emptied gone⟩
  · intro held f message
    exact Session.perform_send held f message
  · intro finished later f message
    exact ((Session.shut_of_over fresh run finished).run later).send f message

/-- A stream in both directions, just opened. -/
def duplexStream : Stream (Unit × StreamMemory) :=
  ((ClientConfig.new "http://h").openStream () (.of "pkg.Svc/Go" .bidiStream .unknown) .empty
    fun _ => .ok (.fresh 64)).stream

/-- Two notes are sent, of which the transport takes the first before it drops its end. -/
def droppedEnd : List (Favour × Action Note) :=
  [.caller (.send ⟨"req", 1, []⟩), .caller (.send ⟨"", 2, []⟩), .takeFrames 1, .dropBody,
    .caller .closeSend].map (⟨true, true⟩, ·)

/-- One frame has been taken when the transport drops its end, and the other one is discarded. -/
theorem sends_accounted_droppedEnd :
    let after := (Session.start duplexStream).run Note droppedEnd
    taken after.1 = [[0, 0, 0, 0, 7, 10, 3, 114, 101, 113, 16, 1]] ∧
      (Session.start duplexStream).discarded Note droppedEnd = [[0, 0, 0, 0, 2, 16, 2]] ∧
      (Session.start duplexStream).accepted Note droppedEnd =
        taken after.1 ++ (Session.start duplexStream).discarded Note droppedEnd ++
          after.2.stream.link.queue ∧
      after.2.stream.link.queue = [] ∧
      (after.2.perform Note ⟨true, true⟩ (.caller (.send (⟨"", 3, []⟩ : Note)))).1 =
        .sent (.error (.new .failedPrecondition "stream is closed for sending")) := by
  have fresh : duplexStream.Fresh := .opened _ _ _ _ _
  have discarded : (Session.start duplexStream).discarded Note droppedEnd =
      [[0, 0, 0, 0, 2, 16, 2]] := by decide +kernel
  have first : taken ((Session.start duplexStream).run Note droppedEnd).1 =
      [[0, 0, 0, 0, 7, 10, 3, 114, 101, 113, 16, 1]] := by decide +kernel
  have held : ((Session.start duplexStream).run Note droppedEnd).2.held = true := by decide +kernel
  rcases run : (Session.start duplexStream).run Note droppedEnd with ⟨seen, t⟩
  rw [run] at first held
  obtain ⟨⟨queue, -, emptied⟩, -, late⟩ := sends_accounted fresh rfl droppedEnd run
  have closed := late (.closed ⟨true, true⟩ (by simp [droppedEnd])) [] ⟨true, true⟩ ⟨"", 3, []⟩
  refine ⟨first, discarded, queue, (emptied ?_).2, ?_⟩
  · rw [discarded]
    exact List.cons_ne_nil _ _
  · exact (congrArg Prod.fst closed).trans (if_pos held)

/-- A frame that is queued when the transport drops its end is neither taken nor queued any longer,
though its caller was told that it was sent. -/
theorem sent_discarded :
    ¬ ∀ s : Stream (Unit × StreamMemory), s.Fresh → s.link.queue = [] →
      ∀ actions : List (Favour × Action Note),
        (Session.start s).accepted Note actions =
          taken ((Session.start s).run Note actions).1 ++
            ((Session.start s).run Note actions).2.stream.link.queue := by
  intro all
  have lost := all duplexStream (.opened _ _ _ _ _) rfl
    [(⟨true, true⟩, .caller (.send ⟨"req", 1, []⟩)), (⟨true, true⟩, .dropBody),
      (⟨true, true⟩, .takeBody)]
  revert lost
  decide +kernel

end RpcWire
