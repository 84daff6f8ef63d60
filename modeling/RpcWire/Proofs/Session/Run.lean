import RpcWire.Proofs.Session.Receive

/-!
# What a whole session keeps

Something that is said of a stream and of the events received from it, and that
every step of the stream keeps, is kept by a session: by any operations of the
caller, the transport and the clock, in any order.

* `received`: the events that the observations of a session hand to its caller;
* `Stream.Invariant`: what has to be shown of each step;
* `Session.run_keeps`, `Session.run_keeps_stream`: what then holds of every run.
-/

namespace RpcWire

variable {σ : Type}

/-! ## What a caller is handed -/

/-- The events that an observation hands to the caller. -/
def Observation.handed {β : Type} : Observation β → List (Event β)
  | .event e => [e]
  | .events es => es
  | _ => []

/-- The events that a caller has been handed. -/
def received {β : Type} (seen : List (Observation β)) : List (Event β) :=
  seen.flatMap Observation.handed

theorem received_cons {β : Type} (o : Observation β) (seen : List (Observation β)) :
    received (o :: seen) = o.handed ++ received seen := rfl

namespace Stream

def Turn.events {α : Type} : Turn α → List (Event α)
  | .event e => [e]
  | _ => []

def Receiving.events {α : Type} : Receiving α → List (Event α)
  | .event e => [e]
  | _ => []

/-! ## Invariants -/

/-- Something said of a stream and of the events received from it that no step breaks. -/
structure Invariant {β : Type} [Message β] (kept : Stream σ → List (Event β) → Prop) : Prop where
  turned : ∀ {s es r}, kept s es → s.Turned r → kept r.2 (es ++ r.1.events)
  sent : ∀ {s t es}, kept s es → s.Sent t → kept t es
  cancel : ∀ {s es}, kept s es → kept s.cancel es
  closeSend : ∀ {s es}, kept s es → kept s.closeSend es
  /-- Neither the queues nor the clock matter. -/
  quiet : ∀ {s : Stream σ} {es}, kept s es → ∀ listening link clock,
    kept { s with listening, link, clock } es

/-- Something said of a stream alone, and not of the events received from it, that an abort and the
end keep. Nothing else that a turn or sending does changes more than what is named in `still`. -/
structure Lasting (holds : Stream σ → Prop) : Prop where
  still : ∀ {s}, holds s → ∀ memory headers pending listening link,
    holds { s with memory, headers, pending, listening, link }
  abort : ∀ {s}, holds s → ∀ a, s.clock.Due a → holds (s.abort a).2
  finish : ∀ (β : Type) {s}, holds s → ∀ cause trailers,
    holds (s.finish (α := β) cause trailers).2

namespace Lasting

variable {holds : Stream σ → Prop} (lasting : Lasting holds) {s : Stream σ}

include lasting

theorem next {r : Option (Event Bytes) × Stream σ} (h : holds s) (hn : s.Next r) : holds r.2 := by
  cases hn with
  | @pending e rest _ => exact lasting.still h s.memory s.headers rest s.listening s.link
  | @arrived e link _ _ =>
    exact lasting.still h (s.hook.event s.memory e).2 s.headers s.pending s.listening link
  | asleep _ _ => exact h
  | aborted a _ due => exact lasting.abort h a due

/-- A turn of receiving keeps what lasts. -/
theorem turned {β : Type} [Message β] {r : Turn β × Stream σ} (h : holds s) (ht : s.Turned r) :
    holds r.2 := by
  cases ht with
  | ended _ => exact h
  | waiting _ hn => exact lasting.next h hn
  | skipped _ hn _ => exact lasting.next h hn
  | @headers t given _ hn _ =>
    exact lasting.still (lasting.next h hn) t.memory (some given) t.pending t.listening t.link
  | @supplied t payload _ hn _ =>
    exact lasting.still (lasting.next h hn) t.memory (some .empty) (.message payload :: t.pending)
      t.listening t.link
  | message _ hn _ _ => exact lasting.next h hn
  | @unreadable _ _ cause _ hn _ _ => exact lasting.finish β (lasting.next h hn) (some cause) .empty
  | @complete _ cause trailers _ hn => exact lasting.finish β (lasting.next h hn) cause trailers

theorem abortLater {a : Abort} (aborted : holds (s.abort a).2) : holds (s.abortLater a).2 :=
  lasting.still aborted s.memory s.headers [.fail (s.abort a).1] false s.link

/-- So does sending. -/
theorem sent {t : Stream σ} (h : holds s) (hs : s.Sent t) : holds t := by
  have asked : ∀ memory link, holds { s with memory, link } := fun memory link =>
    lasting.still h memory s.headers s.pending s.listening link
  cases hs with
  | refused => exact h
  | asked _ link _ => exact asked _ link
  | aborted _ a _ due => exact lasting.abortLater (lasting.abort (asked _ s.link) a due)

end Lasting

/-- Something said of a stream alone that the clock does not matter to. -/
theorem Invariant.of_alone {β : Type} [Message β] {holds : Stream σ → Prop}
    (still : ∀ {s}, holds s → ∀ memory headers pending listening link clock,
      holds { s with memory, headers, pending, listening, link, clock })
    (abort : ∀ {s}, holds s → ∀ a, holds (s.abort a).2)
    (finish : ∀ (β : Type) {s}, holds s → ∀ cause trailers,
      holds (s.finish (α := β) cause trailers).2)
    (closeSend : ∀ {s}, holds s → holds s.closeSend) :
    Invariant (β := β) fun s _ => holds s := by
  have lasting : Lasting holds := by
    refine ⟨?_, fun h a _ => abort h a, finish⟩
    intro s h memory headers pending listening link
    exact still h memory headers pending listening link s.clock
  constructor
  · exact fun h ht => lasting.turned h ht
  · exact fun h hs => lasting.sent h hs
  · intro s es h
    unfold Stream.cancel
    split
    · exact h
    · exact lasting.abortLater (abort h .canceled)
  · exact fun h => closeSend h
  · intro s es h listening link clock
    exact still h s.memory s.headers s.pending listening link clock

section Receiving

/-! Receiving is turns and nothing else, so it is enough to look at one turn. -/

variable {β γ : Type} [Message β] {kept : Stream σ → List (Event β) → Prop} {s t : Stream σ}
  {es : List (Event β)} {f : Favour}

/-- What every turn keeps is kept by receiving, with the event that it gives. -/
theorem Receives.keeps
    (turned : ∀ {s es r}, kept s es → s.Turned r → kept r.2 (es ++ r.1.events))
    {r : Receiving β} (receives : Receives f s r t) (h : kept s es) : kept t (es ++ r.events) := by
  induction receives with
  | @event s t e turn =>
    have ht := turned h (s.turned_turn f)
    rwa [turn] at ht
  | @skipped s t _ _ turn _ ih =>
    -- the turn showed nothing to the caller, who goes on waiting
    have ht := turned h (s.turned_turn f)
    rw [turn, show Turn.events (α := β) .skipped = [] from rfl, List.append_nil] at ht
    exact ih ht
  | @waiting s t turn =>
    have ht := turned h (s.turned_turn f)
    rwa [turn] at ht
  | @ended s t turn =>
    have ht := turned h (s.turned_turn f)
    rwa [turn] at ht

/-- It is kept by a loop of receptions, with all the events that these give. -/
theorem Gathers.keeps
    (turned : ∀ {s es r}, kept s es → s.Turned r → kept r.2 (es ++ r.1.events))
    {take : γ → Receiving β → γ} {more : γ → Bool} {g : γ} {rs : List (Receiving β)}
    (gathers : Gathers take more f g s rs t) (h : kept s es) :
    kept t (es ++ rs.flatMap Receiving.events) := by
  induction gathers generalizing es with
  | last receives _ => simpa using receives.keeps turned h
  | next receives _ _ _ ih =>
    rw [List.flatMap_cons, ← List.append_assoc]
    exact ih (receives.keeps turned h)

omit [Message β] in
/-- Draining takes every event down. -/
theorem Drained.foldl_take (d : Drained β) (rs : List (Receiving β)) :
    (rs.foldl take d).events = d.events ++ rs.flatMap Receiving.events := by
  induction rs generalizing d with
  | nil => exact (List.append_nil _).symm
  | cons r rs ih =>
    rw [List.foldl_cons, ih, List.flatMap_cons, ← List.append_assoc]
    cases r with
    | event e => rfl
    | waiting => rw [show Receiving.events (α := β) .waiting = [] from rfl, List.append_nil]; rfl
    | ended => rw [show Receiving.events (α := β) .ended = [] from rfl, List.append_nil]; rfl

/-- So does receiving keep what lasts. -/
theorem Lasting.receives {holds : Stream σ → Prop} (lasting : Lasting holds) {r : Receiving β}
    (receives : Receives f s r t) (h : holds s) : holds t :=
  @Receives.keeps σ β _ (fun s _ => holds s) s t [] f (fun h ht => lasting.turned h ht) r receives h

theorem Lasting.gathers {holds : Stream σ → Prop} (lasting : Lasting holds)
    {take : γ → Receiving β → γ} {more : γ → Bool} {g : γ} {rs : List (Receiving β)}
    (gathers : Gathers take more f g s rs t) (h : holds s) : holds t := by
  induction gathers with
  | last receives _ => exact lasting.receives receives h
  | next receives _ _ _ ih => exact ih (lasting.receives receives h)

end Receiving

end Stream

/-! ## Sessions -/

namespace Session

variable {α β : Type} [Message α] [Message β] {kept : Stream σ → List (Event β) → Prop}

/-- Something kept by the stream of a session, of whose events the caller was handed `es`. A caller
who gives the stream up may have left events unseen. -/
structure Kept (kept : Stream σ → List (Event β) → Prop) (s : Session σ) (es : List (Event β)) :
    Prop where
  held : s.held = true → kept s.stream es
  handed : ∃ t, kept t es
  drained : ∃ unseen, kept s.stream (es ++ unseen)

omit [Message β] in
theorem Kept.start {s : Stream σ} {es : List (Event β)} (h : kept s es) :
    Kept kept (.start s) es :=
  ⟨fun _ => h, ⟨s, h⟩, [], by rwa [List.append_nil]⟩

theorem Kept.release (inv : Stream.Invariant kept) {s t : Stream σ} {es unseen : List (Event β)}
    (handed : kept t es) (drained : kept s (es ++ unseen)) : Kept kept (release s) es :=
  ⟨fun held => (nomatch held), ⟨t, handed⟩, unseen,
    inv.quiet (inv.closeSend drained) false s.link s.clock⟩

/-! What asking for events comes to: something is received, or the loop has no end. -/

/-- A caller receives something after finitely many turns, or the wait has no end. -/
theorem performHeld_receive (s : Stream σ) (f : Favour) :
    (∃ r t, Stream.Receives f s r t ∧
        performHeld β s f (.receive : CallerAction α) = (.ofReceiving r, .start t)) ∨
      performHeld β s f (.receive : CallerAction α) = (.waiting, .start s) := by
  simp only [performHeld]
  rcases received : s.receive β f with _ | ⟨r, t⟩
  · exact .inr rfl
  · exact .inl ⟨r, t, Stream.receive_eq_some_iff.mp received, rfl⟩

/-- A caller who asks at once gets a reply of what is received, or none yet, or the loop has no end.
In any case the stream is given up. -/
theorem performHeld_closeAndReceive (s : Stream σ) (f : Favour) :
    (∃ rs t, Stream.Gathers Gathered.take (fun g => g.reply.isNone) f Gathered.empty s.closeSend
          rs t ∧
        performHeld β s f (.closeAndReceive : CallerAction α) =
          ((rs.foldl Gathered.take Gathered.empty).reply.elim .waiting .reply, release t)) ∨
      performHeld β s f (.closeAndReceive : CallerAction α) = (.waiting, release s.closeSend) := by
  simp only [performHeld, Stream.awaitReply]
  rcases gathered : s.closeSend.gather (Gathered.take (α := β)) (fun g => g.reply.isNone)
    Gathered.empty f with _ | ⟨g, t⟩
  · exact .inr rfl
  · obtain ⟨rs, gathers, same⟩ := Stream.gather_eq_some_iff.mp gathered
    refine .inl ⟨rs, t, gathers, ?_⟩
    rw [same]
    rcases g with ⟨_, _, _, _ | r⟩ <;> rfl

theorem performHeld_collect (s : Stream σ) (f : Favour) :
    (∃ rs t, Stream.Gathers Stream.Drained.take (fun _ => true) f ⟨[], false⟩ s rs t ∧
        (performHeld β s f (.collect : CallerAction α) =
            (.events (rs.flatMap Stream.Receiving.events), release t) ∨
          performHeld β s f (.collect : CallerAction α) = (.waiting, release t))) ∨
      performHeld β s f (.collect : CallerAction α) = (.waiting, release s) := by
  simp only [performHeld, Stream.drain]
  rcases gathered : s.gather (Stream.Drained.take (α := β)) (fun _ => true) ⟨[], false⟩ f with
    _ | ⟨⟨es, ended⟩, t⟩
  · exact .inr rfl
  · obtain ⟨rs, gathers, made⟩ := Stream.gather_eq_some_iff.mp gathered
    have events := Stream.Drained.foldl_take ⟨[], false⟩ rs
    rw [made, List.nil_append] at events
    refine .inl ⟨rs, t, gathers, ?_⟩
    cases ended with
    | false => exact .inr rfl
    | true => exact .inl (by rw [← events])

/-- What every step of a stream keeps is kept by everything that its caller does. -/
theorem performHeld_keeps (inv : Stream.Invariant kept) {s : Stream σ} {es : List (Event β)}
    (h : kept s es) (f : Favour) (a : CallerAction α) :
    Kept kept (performHeld β s f a).2 (es ++ (performHeld β s f a).1.handed) := by
  have h' : kept s (es ++ []) := by simpa using h
  have h'' : kept s (es ++ [] ++ []) := by simpa using h
  cases a with
  | send message =>
    have hs := inv.sent h' (s.sent_send f message)
    simp only [performHeld]
    rcases hr : s.send f message with ⟨_ | _ | _, t⟩ <;> rw [hr] at hs <;> exact .start hs
  | receive =>
    rcases performHeld_receive (α := α) (β := β) s f with ⟨r, t, receives, seen⟩ | seen <;>
      rw [seen]
    · have hr := receives.keeps inv.turned h
      cases r <;> exact .start hr
    · exact .start h'
  | closeAndReceive =>
    rcases performHeld_closeAndReceive (α := α) (β := β) s f with ⟨rs, t, gathers, seen⟩ | seen <;>
      rw [seen]
    · have hg := gathers.keeps inv.turned (inv.closeSend h')
      -- the reply is made of events none of which is handed out as an event
      cases (rs.foldl Gathered.take Gathered.empty).reply <;> exact .release inv h' hg
    · have closed := inv.closeSend h''
      exact .release inv h' closed
  | collect =>
    rcases performHeld_collect (α := α) (β := β) s f with ⟨rs, t, gathers, seen | seen⟩ | seen <;>
      rw [seen]
    · have hg := gathers.keeps inv.turned h
      exact .release inv hg (by rwa [List.append_nil])
    · -- collecting never came to an end, and gives nothing out
      exact .release inv h' (gathers.keeps inv.turned h')
    · exact .release inv h' h''
  | cancel => exact .start (inv.cancel h')
  | closeSend => exact .start (inv.closeSend h')
  | headers => exact .start h'
  | drop => exact .release inv h' (by rwa [List.append_nil])

/-- An action is the caller's, or it changes only the link and the clock, takes back no reason for
an abort, and hands out nothing. -/
theorem perform_cases (s : Session σ) (f : Favour) (a : Action α) :
    (∃ c, a = .caller c) ∨
      ∃ link clock, (s.perform β f a).2 = ⟨{ s.stream with link, clock }, s.held⟩ ∧
        (∀ {b}, s.stream.clock.Due b → clock.Due b) ∧ (s.perform β f a).1.handed = [] := by
  have taking : ∀ limit, ∃ link clock, (s.perform (α := α) β f (.takeFrames limit)).2 =
      ⟨{ s.stream with link, clock }, s.held⟩ ∧
      (∀ {b}, s.stream.clock.Due b → clock.Due b) ∧
      (s.perform (α := α) β f (.takeFrames limit)).1.handed = [] := by
    intro limit
    simp only [perform, takeFrames]
    split <;> exact ⟨_, s.stream.clock, rfl, id, rfl⟩
  cases a with
  | caller c => exact .inl ⟨c, rfl⟩
  | deliver e =>
    simp only [perform, deliver]
    split <;> exact .inr ⟨_, s.stream.clock, rfl, id, rfl⟩
  | takeBody => exact .inr (taking s.stream.link.queue.length)
  | takeFrames limit => exact .inr (taking limit)
  | hangUp => exact .inr ⟨_, s.stream.clock, rfl, id, rfl⟩
  | dropBody => exact .inr ⟨_, s.stream.clock, rfl, id, rfl⟩
  | fire => exact .inr ⟨s.stream.link, _, rfl, Clock.Due.fire, rfl⟩
  | advance t => exact .inr ⟨s.stream.link, _, rfl, Clock.Due.advance t, rfl⟩

/-- It is kept by whatever the caller, the transport and the clock do. -/
theorem perform_keeps (inv : Stream.Invariant kept) {s : Session σ} {es : List (Event β)}
    (h : Kept kept s es) (f : Favour) (a : Action α) :
    Kept kept (s.perform β f a).2 (es ++ (s.perform β f a).1.handed) := by
  have quiet : ∀ link clock, Kept kept ⟨{ s.stream with link, clock }, s.held⟩ (es ++ []) := by
    intro link clock
    rw [List.append_nil]
    obtain ⟨unseen, drained⟩ := h.drained
    exact ⟨fun held => inv.quiet (h.held held) s.stream.listening link clock, h.handed, unseen,
      inv.quiet drained s.stream.listening link clock⟩
  rcases s.perform_cases (β := β) f a with ⟨c, rfl⟩ | ⟨link, clock, after, -, nothing⟩
  · simp only [perform]
    by_cases held : s.held = true
    · rw [if_pos held]
      exact performHeld_keeps inv (h.held held) f c
    · -- a caller who has given the stream up does nothing to it
      rw [if_neg held]
      exact quiet s.stream.link s.stream.clock
  · rw [after, nothing]
    exact quiet link clock

/-- What every step of a stream keeps is kept by every session. -/
theorem run_keeps (inv : Stream.Invariant kept) {s : Session σ} {es : List (Event β)}
    (h : Kept kept s es) (actions : List (Favour × Action α)) :
    Kept kept (s.run β actions).2 (es ++ received (s.run β actions).1) := by
  induction actions generalizing s es with
  | nil => simpa [run, received] using h
  | cons fa rest ih =>
    obtain ⟨f, action⟩ := fa
    have hp := ih (perform_keeps inv h f action)
    simp only [run, received_cons]
    rw [← List.append_assoc]
    exact hp

/-- What every step keeps of a stream alone. -/
theorem run_keeps_stream {holds : Stream σ → Prop}
    (inv : Stream.Invariant (β := β) fun s _ => holds s) {s : Session σ} (h : holds s.stream)
    (actions : List (Favour × Action α)) : holds (s.run β actions).2.stream := by
  have begun : Kept (fun t (_ : List (Event β)) => holds t) s [] := ⟨fun _ => h, ⟨_, h⟩, [], h⟩
  obtain ⟨_, kept⟩ := (run_keeps inv begun actions).drained
  exact kept

/-! ## Giving a stream up -/

theorem unheld_perform {s : Session σ} (given : s.held = false) (f : Favour) (a : Action α) :
    (s.perform β f a).2.held = false := by
  rcases s.perform_cases (β := β) f a with ⟨c, rfl⟩ | ⟨link, clock, after, -⟩
  · simp only [perform, given, Bool.false_eq_true, if_false]
  · rw [after, given]

/-- No action gives a stream back to a caller who has given it up. -/
theorem held_of_perform {s : Session σ} {f : Favour} {a : Action α}
    (held : (s.perform β f a).2.held = true) : s.held = true := by
  apply Bool.of_not_eq_false
  intro given
  rw [unheld_perform given] at held
  cases held

/-- A stream that has been given up is never held again. -/
theorem held_of_run {s : Session σ} {actions : List (Favour × Action α)}
    (held : (s.run β actions).2.held = true) : s.held = true := by
  induction actions generalizing s with
  | nil => exact held
  | cons fa rest ih =>
    obtain ⟨f, a⟩ := fa
    have still : (s.perform β f a).2.held = true := ih held
    exact held_of_perform still

end Session

end RpcWire
