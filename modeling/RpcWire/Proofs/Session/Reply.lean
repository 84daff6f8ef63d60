import RpcWire.Proofs.Session.Received

/-!
# The reply of a stream with a single response

A caller who ends sending and waits for the single response receives events
until the completion, and makes a reply of them (`Gathered.await`). Whatever the
hook makes of the transport's events, and whenever the call is aborted, the
reply comes with the completion and not before it; so there is always a status
to report. It is a success exactly if there was one message and the completion
has no cause (`Reply.Follows`).

* `Gathered.reply_of_whole`: the events of a whole stream make one reply;
* `Session.await_run`: waiting makes the same reply of the events that are
  received;
* `Session.closeAndReceive_of_complete`, `Session.complete_of_closeAndReceive`:
  asking once makes a reply exactly if receiving again and again leads to the
  completion;
* `reply_follows`: so it is with every call, in whatever order its transport,
  its deadline and its cancellation come.
-/

namespace RpcWire

variable {σ : Type}

/-! ## What a reply has to say -/

/-- A reply that says what the events before a completion, and the completion, call for. -/
structure Reply.Follows {β : Type} (r : Reply β) (es : List (Event β)) (cause : Option Failure)
    (trailers : Metadata) : Prop where
  success : ∀ m, r.outcome = .ok m ↔ cause = none ∧ Event.messages es = [m]
  failure : ∀ f, cause = some f → r.outcome = .error f
  count : cause = none → (Event.messages es).length ≠ 1 →
    ∃ f, r.outcome = .error f ∧ f.code = .unimplemented
  headers : r.headers = (Event.allHeaders es).headD .empty
  trailers : r.trailers = trailers

namespace Gathered

variable {β : Type}

/-! ## The events of a whole stream -/

theorem absorb_of_reply {g : Gathered β} (replied : g.reply.isSome = true) (e : Event β) :
    g.absorb e = g := if_pos replied

/-! Once there is a reply, waiting makes no other. -/

/-- A caller who has a reply does not look any further. -/
theorem see_of_reply (g : Gathered β) (replied : g.reply.isSome = true) (o : Observation β) :
    g.see o = g := by
  obtain ⟨headers, message, extra, _ | r⟩ := g
  · cases replied
  · cases o <;> rfl

theorem await_cons (g : Gathered β) (o : Observation β) (seen : List (Observation β)) :
    g.await (o :: seen) = (g.see o).await seen := rfl

theorem await_of_reply {g : Gathered β} {r : Reply β} (replied : g.reply = some r)
    (seen : List (Observation β)) : g.await seen = some r := by
  induction seen with
  | nil => exact replied
  | cons o seen ih => rw [await_cons, g.see_of_reply (by rw [replied]; rfl), ih]

theorem see_ofReceiving (g : Gathered β) (r : Stream.Receiving β) :
    g.see (.ofReceiving r) = g.take r := by
  cases r <;> rfl

/-- Waiting gathers from what is received one after another what a loop gathers at once. -/
theorem await_ofReceiving (g : Gathered β) (rs : List (Stream.Receiving β)) :
    g.await (rs.map .ofReceiving) = (rs.foldl take g).reply := by
  rw [await, List.foldl_map]
  exact congrArg (fun step => (List.foldl step g rs).reply)
    (funext fun g => funext (see_ofReceiving g))

/-- After a completion there is one. -/
theorem isSome_absorb_complete (g : Gathered β) (cause : Option Failure) (trailers : Metadata) :
    (g.absorb (.complete cause trailers)).reply.isSome = true := by
  by_cases replied : g.reply.isSome = true
  · rwa [absorb_of_reply replied]
  · rw [absorb, if_neg replied]
    rfl

/-- What has been gathered of headers and some messages: the first of these, and whether there were
more. -/
def ofMessages (headers : Metadata) (ms : List β) : Gathered β :=
  ⟨headers, ms.head?, decide (1 < ms.length), none⟩

theorem absorb_message (headers : Metadata) (ms : List β) (m : β) :
    (ofMessages headers ms).absorb (.message m) = ofMessages headers (ms ++ [m]) := by
  cases ms with
  | nil => rfl
  | cons first rest => simp [ofMessages, absorb]

/-- Any number of messages is gathered as the first of them and whether there were more. -/
theorem foldl_absorb_messages (headers : Metadata) (seen ms : List β) :
    (ms.map Event.message).foldl absorb (ofMessages headers seen) =
      ofMessages headers (seen ++ ms) := by
  induction ms generalizing seen with
  | nil => rw [List.append_nil]; rfl
  | cons m ms ih =>
    rw [List.map_cons, List.foldl_cons, absorb_message, ih, List.append_assoc]
    rfl

/-- The outcome of a stream that had these messages. -/
theorem outcome_ofMessages (headers : Metadata) (ms : List β) (cause : Option Failure) :
    (∀ m, (ofMessages headers ms).outcome cause = .ok m ↔ cause = none ∧ ms = [m]) ∧
      (∀ f, cause = some f → (ofMessages headers ms).outcome cause = .error f) ∧
      (cause = none → ms.length ≠ 1 →
        ∃ f, (ofMessages headers ms).outcome cause = .error f ∧ f.code = .unimplemented) := by
  cases cause with
  | some f =>
    refine ⟨fun m => ⟨nofun, fun h => nomatch h.1⟩, ?_, nofun⟩
    rintro _ ⟨⟩
    rfl
  | none =>
    refine ⟨?_, nofun, ?_⟩
    · intro m
      match ms with
      | [] => exact ⟨nofun, fun h => nomatch h.2⟩
      | [n] => simp [ofMessages, outcome]
      | _ :: _ :: _ => simp [ofMessages, outcome]
    · intro _ count
      match ms with
      | [] => exact ⟨Grpc.noMessages, rfl, rfl⟩
      | [n] => exact absurd rfl count
      | _ :: _ :: _ => exact ⟨Grpc.multipleMessages, by simp [ofMessages, outcome], rfl⟩

/-- Headers, messages and a completion make a reply of these headers and trailers. -/
theorem reply_full (headers : Metadata) (ms : List β) (cause : Option Failure)
    (trailers : Metadata) :
    (List.foldl absorb empty
        (.headers headers :: (ms.map .message ++ [.complete cause trailers]))).reply =
      some ⟨(ofMessages headers ms).outcome cause, headers, trailers⟩ := by
  rw [← List.cons_append, List.foldl_append]
  have gathered : (Event.headers headers :: ms.map .message).foldl absorb empty =
      ofMessages headers ms := foldl_absorb_messages headers [] ms
  rw [gathered]
  rfl

/-- The events of a whole stream make a reply, which follows from them. -/
theorem reply_of_whole {es : List (Event β)} (whole : Event.Whole es) :
    ∃ before cause trailers r, es = before ++ [.complete cause trailers] ∧
      (es.foldl absorb empty).reply = some r ∧ r.Follows before cause trailers := by
  cases whole with
  | alone cause trailers =>
    obtain ⟨success, failure, count⟩ := outcome_ofMessages .empty ([] : List β) cause
    exact ⟨[], cause, trailers, _, rfl, rfl, success, failure, count, rfl, rfl⟩
  | full headers ms cause trailers =>
    obtain ⟨success, failure, count⟩ := outcome_ofMessages headers ms cause
    have shown : Event.messages (.headers headers :: ms.map .message) = ms := by simp
    refine ⟨.headers headers :: ms.map .message, cause, trailers, _, rfl,
      reply_full headers ms cause trailers, ?_⟩
    constructor
    · rw [shown]
      exact success
    · exact failure
    · rw [shown]
      exact count
    · rfl
    · rfl

end Gathered

/-- Where the completion is there, so is the reply that follows from it. -/
theorem Reply.follows_of_complete {β : Type} {made : Option (Reply β)} {shown es : List (Event β)}
    {cause : Option Failure} {trailers : Metadata}
    (resolved : made = none ↔ ∀ cause trailers, .complete cause trailers ∉ shown)
    (follows : ∀ r, made = some r → ∃ es cause trailers,
      shown = es ++ [.complete cause trailers] ∧ r.Follows es cause trailers)
    (whole : shown = es ++ [.complete cause trailers]) :
    ∃ r, made = some r ∧ r.Follows es cause trailers := by
  have there : .complete cause trailers ∈ shown := by
    rw [whole]
    exact List.mem_append_right _ List.mem_cons_self
  obtain ⟨r, replied⟩ := Option.ne_none_iff_exists'.mp fun nothing =>
    resolved.mp nothing cause trailers there
  obtain ⟨es', cause', trailers', same, follows⟩ := follows r replied
  rw [whole] at same
  obtain ⟨rfl, ended⟩ := List.append_inj' same rfl
  cases ended
  exact ⟨r, replied, follows⟩

/-! ## Waiting for the end -/

namespace Stream

variable {β : Type} [Message β] {s : Stream σ} {es : List (Event β)}

/-- Only a stream that is over gives no more events. -/
theorem Receives.completed_of_ended {f : Favour} {t : Stream σ}
    (receives : Receives f s (.ended : Receiving β) t) : s.completed = true := by
  generalize nothing : (.ended : Receiving β) = r at receives
  induction receives with
  | event _ => cases nothing
  | waiting _ => cases nothing
  | @skipped s t _ _ turn _ ih =>
    have turned := s.turned_turn (β := β) f
    rw [turn] at turned
    generalize come : (Turn.skipped (α := β), t) = r at turned
    cases turned with
    | skipped _ next _ =>
      cases come
      rw [← next.unchanged.1]
      exact ih nothing
    | _ => cases come
  | @ended s t turn =>
    have turned := s.turned_turn (β := β) f
    rw [turn] at turned
    generalize come : (Turn.ended (α := β), t) = r at turned
    cases turned with
    | ended completed => exact completed
    | _ => cases come

omit [Message β] in
/-- What has been received makes a reply exactly if the stream is over. -/
theorem Orderly.reply_iff (h : s.Orderly es) :
    (es.foldl Gathered.absorb Gathered.empty).reply.isSome = true ↔ s.completed = true := by
  cases completed : s.completed with
  | true =>
    obtain ⟨_, _, _, r, _, replied, _⟩ := Gathered.reply_of_whole (h.ended completed)
    rw [replied]
    exact ⟨fun _ => rfl, fun _ => rfl⟩
  | false =>
    have nothing : (es.foldl Gathered.absorb Gathered.empty).reply = none := by
      by_cases unseen : s.headers = none
      · rw [h.unseen completed unseen]
        rfl
      · obtain ⟨headers, ms, rfl⟩ := h.within completed unseen
        exact congrArg Gathered.reply (Gathered.foldl_absorb_messages headers [] ms)
    rw [nothing]
    exact ⟨nofun, nofun⟩

omit [Message β] in
/-- There is a reply exactly if the completion has been received, and it follows from the events. -/
theorem Orderly.replies (h : s.Orderly es) :
    ((es.foldl Gathered.absorb Gathered.empty).reply = none ↔
        ∀ cause trailers, .complete cause trailers ∉ es) ∧
      ∀ r, (es.foldl Gathered.absorb Gathered.empty).reply = some r →
        ∃ before cause trailers, es = before ++ [.complete cause trailers] ∧
          r.Follows before cause trailers := by
  cases completed : s.completed with
  | true =>
    obtain ⟨before, cause, trailers, r, shown, replied, follows⟩ :=
      Gathered.reply_of_whole (h.ended completed)
    rw [replied]
    constructor
    · have there : .complete cause trailers ∈ es := by
        rw [shown]
        exact List.mem_append_right _ List.mem_cons_self
      exact ⟨nofun, fun none => absurd there (none cause trailers)⟩
    · rintro _ ⟨⟩
      exact ⟨before, cause, trailers, shown, follows⟩
  | false =>
    have nothing : (es.foldl Gathered.absorb Gathered.empty).reply = none := by
      rw [← Option.not_isSome_iff_eq_none, h.reply_iff, completed]
      decide
    rw [nothing]
    constructor
    · refine ⟨fun _ cause trailers there => ?_, fun _ => rfl⟩
      rw [h.completed_of_mem there] at completed
      cases completed
    · exact nofun

end Stream

namespace Session

variable {α β : Type} [Message α] [Message β] {s : Session σ}

/-- What the caller may see of an action that leaves the stream in the caller's hands: an event, or
nothing that counts. The end only counts if there was no completion. -/
theorem perform_seen (f : Favour) {a : Action α}
    (still : (s.perform β f a).2.held = true) :
    (∃ e, (s.perform β f a).1 = .event e) ∨
      (s.perform β f a).1.handed = [] ∧ ∀ g : Gathered β,
        (s.stream.completed = true → g.reply.isSome = true) → g.see (s.perform β f a).1 = g := by
  cases a with
  | caller a =>
    simp only [perform, if_pos (held_of_perform still)] at still ⊢
    cases a with
    | receive =>
      rcases performHeld_receive (α := α) (β := β) s.stream f with ⟨r, t, receives, seen⟩ | seen <;>
        rw [seen]
      · cases r with
        | event e => exact .inl ⟨e, rfl⟩
        | waiting => exact .inr ⟨rfl, fun _ _ => rfl⟩
        | ended =>
          exact .inr ⟨rfl, fun g replied => g.see_of_reply (replied receives.completed_of_ended) _⟩
      · exact .inr ⟨rfl, fun _ _ => rfl⟩
    | send message =>
      simp only [performHeld]
      rcases s.stream.send f message with ⟨_ | _ | _, t⟩ <;> exact .inr ⟨rfl, fun _ _ => rfl⟩
    | closeAndReceive =>
      -- the stream is given up
      rcases performHeld_closeAndReceive (α := α) (β := β) s.stream f with
        ⟨_, _, _, seen⟩ | seen <;>
        (rw [seen] at still; cases still)
    | collect =>
      rcases performHeld_collect (α := α) (β := β) s.stream f with ⟨_, _, _, seen | seen⟩ | seen <;>
        (rw [seen] at still; cases still)
    | drop => cases still
    | closeSend => exact .inr ⟨rfl, fun _ _ => rfl⟩
    | headers => exact .inr ⟨rfl, fun _ _ => rfl⟩
    | cancel => exact .inr ⟨rfl, fun _ _ => rfl⟩
  | _ =>
    -- what the transport and the clock do is seen, but is no event
    exact .inr ⟨rfl, fun _ _ => rfl⟩

/-- Waiting makes of what it sees the reply that the events received make, if they make one yet. -/
theorem await_run {es : List (Event β)} (h : s.stream.Orderly es)
    {actions : List (Favour × Action α)} (held : (s.run β actions).2.held = true) :
    (es.foldl Gathered.absorb Gathered.empty).await (s.run β actions).1 =
      ((es ++ received (s.run β actions).1).foldl Gathered.absorb Gathered.empty).reply := by
  induction actions generalizing s es with
  | nil =>
    rw [run, received, List.flatMap_nil, List.append_nil]
    rfl
  | cons fa rest ih =>
    obtain ⟨f, a⟩ := fa
    have still : (s.perform β f a).2.held = true := held_of_run held
    have begun : Kept Stream.Orderly s es := ⟨fun _ => h, ⟨_, h⟩, [], by rwa [List.append_nil]⟩
    have orderly := (perform_keeps Stream.Orderly.invariant begun f a).held still
    simp only [run, received_cons, Gathered.await_cons]
    rcases perform_seen f still with ⟨e, seen⟩ | ⟨handed, seen⟩
    · rw [seen] at orderly ⊢
      have absorbed : ((es ++ [e]).foldl Gathered.absorb Gathered.empty) =
          (es.foldl Gathered.absorb Gathered.empty).see (.event e) := List.foldl_append
      rw [← absorbed, ← List.append_assoc]
      exact ih orderly held
    · rw [handed, List.append_nil] at orderly
      rw [seen _ h.reply_iff.mpr, handed, List.nil_append]
      exact ih orderly held

theorem await_begun (h : s.stream.Orderly ([] : List (Event β)))
    {actions : List (Favour × Action α)} (held : (s.run β actions).2.held = true) :
    Gathered.empty.await (s.run β actions).1 =
      ((received (s.run β actions).1).foldl Gathered.absorb Gathered.empty).reply :=
  await_run h held

/-- Waiting on a stream of which nothing has been received makes a reply exactly if the completion
is received, and the reply follows from the events. -/
theorem await_follows {s : Stream σ} (begun : s.Orderly ([] : List (Event β)))
    {around : List (Favour × Action α)} {seen : List (Observation β)} {t : Session σ}
    (waited : (start s).run β around = (seen, t)) (held : t.held = true) :
    (Gathered.empty.await seen = none ↔
        ∀ cause trailers, .complete cause trailers ∉ received seen) ∧
      ∀ r, Gathered.empty.await seen = some r →
        ∃ es cause trailers, received seen = es ++ [.complete cause trailers] ∧
          r.Follows es cause trailers := by
  have kept : ((start s).run β around).2.held = true := by rwa [waited]
  have reply := await_begun (s := start s) begun kept
  obtain ⟨u, orderly⟩ := (run_keeps Stream.Orderly.invariant (.start begun) around).handed
  rw [waited] at reply orderly
  rw [reply]
  exact orderly.replies

/-! ## Asking once -/

section AtOnce

variable {s t : Stream σ} {f : Favour} {g : Gathered β} {r : Reply β}

/-- The caller receives again and again. -/
def receiving (α : Type) (f : Favour) (n : Nat) : List (Favour × Action α) :=
  List.replicate n (f, .caller .receive)

/-- Receiving leaves the stream with its caller. -/
theorem held_receiving (s : Stream σ) (f : Favour) (n : Nat) :
    ((start s).run β (receiving α f n)).2.held = true := by
  induction n generalizing s with
  | zero => rfl
  | succ n ih =>
    show ((performHeld β s f (.receive : CallerAction α)).2.run β (receiving α f n)).2.held = true
    rcases performHeld_receive (α := α) (β := β) s f with ⟨r, t, -, seen⟩ | seen <;> rw [seen]
    · exact ih t
    · exact ih s

/-- A loop that receives sees what a caller sees who receives as often. -/
theorem run_receiving {γ : Type} {take : γ → Stream.Receiving β → γ} {more : γ → Bool} {g : γ}
    {rs : List (Stream.Receiving β)} (gathers : Stream.Gathers take more f g s rs t) :
    (start s).run β (receiving α f rs.length) = (rs.map .ofReceiving, start t) := by
  have one : ∀ {s t : Stream σ} {r : Stream.Receiving β}, Stream.Receives f s r t →
      (start s).perform β f (.caller (.receive : CallerAction α)) = (.ofReceiving r, start t) := by
    intro s t r receives
    simp only [perform, start, if_true, performHeld, Stream.receive_eq_some_iff.mpr receives]
  induction gathers with
  | last receives _ =>
    simp only [receiving, List.length_singleton, List.replicate, run, one receives, List.map_cons,
      List.map_nil]
  | next receives _ _ _ ih =>
    rw [receiving] at ih
    simp only [receiving, List.length_cons, List.replicate_succ, run, one receives, ih,
      List.map_cons]

/-- A reply that is made at once is the reply to a caller who receives again and again. -/
theorem await_of_closeAndReceive {u : Session σ}
    (replied : performHeld β s f (.closeAndReceive : CallerAction α) = (.reply r, u)) :
    ∃ n seen t, (start s.closeSend).run β (receiving α f n) = (seen, start t) ∧ u = release t ∧
      Gathered.empty.await seen = some r := by
  rcases performHeld_closeAndReceive (α := α) (β := β) s f with ⟨rs, t, gathers, seen⟩ | seen <;>
    rw [seen] at replied
  · refine ⟨rs.length, _, t, run_receiving gathers, (congrArg Prod.snd replied).symm, ?_⟩
    rw [Gathered.await_ofReceiving]
    cases made : (rs.foldl Gathered.take Gathered.empty).reply <;> rw [made] at replied <;>
      cases replied
    rfl
  · cases replied

/-- Whoever gets a reply by receiving again and again has received until there was one. -/
theorem gathers_of_await {n : Nat} (open_ : g.reply = none)
    (replied : g.await ((start s).run β (receiving α f n)).1 = some r) :
    ∃ rs t, Stream.Gathers Gathered.take (fun g => g.reply.isNone) f g s rs t ∧
      (rs.foldl Gathered.take g).reply = some r := by
  induction n generalizing s g with
  | zero => cases open_.symm.trans replied
  | succ n ih =>
    simp only [receiving, List.replicate_succ, run, Gathered.await_cons, perform, start, if_true,
      performHeld] at replied
    rcases received : s.receive β f with _ | ⟨come, t⟩ <;> rw [received] at replied
    · -- nothing ever comes, however often it is asked for
      exact ih open_ replied
    · have receives := Stream.receive_eq_some_iff.mp received
      have later : (g.take come).await ((start t).run β (receiving α f n)).1 = some r := by
        rw [← Gathered.see_ofReceiving]
        exact replied
      cases made : (g.take come).reply with
      | some r' =>
        rw [Gathered.await_of_reply made] at later
        refine ⟨[come], t, .last receives (fun goes => ?_), made.trans later⟩
        rw [made] at goes
        cases goes.2
      | none =>
        obtain ⟨rs, u, gathers, reply⟩ := ih made later
        cases come with
        | event e => exact ⟨_, u, .next receives rfl (by rw [made]; rfl) gathers, reply⟩
        | waiting =>
          -- asking again after that makes no reply either
          rw [gathers.eq_of_waiting receives.again] at reply
          cases open_.symm.trans reply
        | ended => cases made

/-- Closing and receiving replies with whatever the loop gathers a reply from. -/
theorem closeAndReceive_of_gathers {rs : List (Stream.Receiving β)}
    (gathers : Stream.Gathers Gathered.take (fun g => g.reply.isNone) f Gathered.empty s.closeSend
      rs t)
    (made : (rs.foldl Gathered.take Gathered.empty).reply = some r) :
    ∃ u, performHeld β s f (.closeAndReceive : CallerAction α) = (.reply r, u) := by
  have gathered := Stream.gather_eq_some_iff.mpr ⟨rs, gathers, rfl⟩
  refine ⟨release t, ?_⟩
  simp only [performHeld, Stream.awaitReply, gathered, Option.map_some, made]

/-- So there is a reply at once. -/
theorem closeAndReceive_of_await {n : Nat}
    (replied : Gathered.empty.await ((start s.closeSend).run β (receiving α f n)).1 = some r) :
    ∃ u, performHeld β s f (.closeAndReceive : CallerAction α) = (.reply r, u) := by
  obtain ⟨rs, t, gathers, made⟩ := gathers_of_await rfl replied
  exact closeAndReceive_of_gathers gathers made

/-- If receiving again and again leads to the completion, there is a reply at once, and it follows
from what is received so. -/
theorem closeAndReceive_of_complete (begun : s.closeSend.Orderly ([] : List (Event β))) {n : Nat}
    {es : List (Event β)} {cause : Option Failure} {trailers : Metadata}
    (shown : received ((start s.closeSend).run β (receiving α f n)).1 =
      es ++ [.complete cause trailers]) :
    ∃ r u, performHeld β s f (.closeAndReceive : CallerAction α) = (.reply r, u) ∧
      r.Follows es cause trailers := by
  obtain ⟨resolved, follows⟩ :=
    await_follows begun (Prod.eta _).symm (held_receiving (α := α) (β := β) s.closeSend f n)
  obtain ⟨r, made, follows⟩ := Reply.follows_of_complete resolved follows shown
  obtain ⟨u, replied⟩ := closeAndReceive_of_await made
  exact ⟨r, u, replied, follows⟩

/-- There is a reply at once only if receiving again and again leads to the completion. -/
theorem complete_of_closeAndReceive (begun : s.closeSend.Orderly ([] : List (Event β)))
    {u : Session σ}
    (replied : performHeld β s f (.closeAndReceive : CallerAction α) = (.reply r, u)) :
    ∃ n es cause trailers, received ((start s.closeSend).run β (receiving α f n)).1 =
      es ++ [.complete cause trailers] ∧ r.Follows es cause trailers := by
  obtain ⟨n, seen, t, receives, -, made⟩ := await_of_closeAndReceive replied
  obtain ⟨es, cause, trailers, shown, follows⟩ := (await_follows begun receives rfl).2 r made
  refine ⟨n, es, cause, trailers, ?_, follows⟩
  rw [receives]
  exact shown

end AtOnce

end Session

variable {α β : Type} [Message α] [Message β]

/-- A call with a single response, of which its caller has received nothing so far. Waiting,
whatever else happens meanwhile, makes a reply exactly if the completion has been received, and the
reply follows from the events that came before it: a success if there was one message and the
completion has no cause, the cause if it has one, and otherwise a complaint about the number of
messages. Asking once makes a reply exactly if receiving again and again leads to the completion,
and the reply follows from what is received so. -/
theorem reply_follows {s : Stream σ} (fresh : s.Fresh) (before : List (Favour × Action α))
    {earlier : List (Observation β)} {t : Session σ}
    (run : (Session.start s).run β before = (earlier, t)) (silent : received earlier = [])
    (held : t.held = true) :
    (∀ (around : List (Favour × Action α)) {seen : List (Observation β)} {u : Session σ},
      (Session.start t.stream.closeSend).run β around = (seen, u) → u.held = true →
      (Gathered.empty.await seen = none ↔
          ∀ cause trailers, .complete cause trailers ∉ received seen) ∧
        ∀ r, Gathered.empty.await seen = some r →
          ∃ es cause trailers, received seen = es ++ [.complete cause trailers] ∧
            r.Follows es cause trailers) ∧
    ∀ f : Favour,
      let atOnce := (t.perform (α := α) β f (.caller .closeAndReceive)).1
      let seen n := ((Session.start t.stream.closeSend).run β (Session.receiving α f n)).1
      (∀ n es cause trailers, received (seen n) = es ++ [.complete cause trailers] →
        ∃ r, atOnce = .reply r ∧ r.Follows es cause trailers) ∧
      ∀ r, atOnce = .reply r →
        ∃ n es cause trailers, received (seen n) = es ++ [.complete cause trailers] ∧
          r.Follows es cause trailers := by
  obtain ⟨unseen, running⟩ := fresh.unseen
  have ordered := Session.orderly_run (β := β) unseen running before
  rw [run, silent] at ordered
  have begun : t.stream.closeSend.Orderly ([] : List (Event β)) :=
    (ordered.held held).transfer rfl rfl
  refine ⟨fun around _ _ waited still => Session.await_follows begun waited still, fun f => ?_⟩
  have asked : t.perform (α := α) β f (.caller .closeAndReceive) =
      Session.performHeld β t.stream f .closeAndReceive := if_pos held
  simp only [asked]
  constructor
  · intro n es cause trailers shown
    obtain ⟨r, u, replied, follows⟩ := Session.closeAndReceive_of_complete begun shown
    exact ⟨r, congrArg Prod.fst replied, follows⟩
  · intro r replied
    exact Session.complete_of_closeAndReceive (α := α) begun (Prod.ext replied rfl)

/-- A note is sent, and everything that answers it is delivered. -/
def answeredNote : List (Favour × Action Note) :=
  [.caller (.send ⟨"A", 0, []⟩), .deliver (.headers .empty), .deliver (.message [10, 1, 66]),
    .deliver (.complete none .empty)].map (⟨true, true⟩, ·)

/-- The stream then. -/
def answered : Session Unit := ((Session.start plainStream).run Note answeredNote).2

/-- The caller waits, and the cancellation comes too late to be noticed. -/
def lateFire : List (Favour × Action Note) :=
  [.caller .receive, .caller .receive, .fire, .caller .receive].map (⟨true, true⟩, ·)

/-- What the caller sees who waits. -/
def lateFired : List (Observation Note) × Session Unit :=
  (Session.start answered.stream.closeSend).run Note lateFire

/-- Waiting and asking at once end with the one message, whether or not the cancellation is fired in
between. -/
theorem reply_follows_lateFire :
    lateFired.2.held = true ∧
      (∃ r, Gathered.empty.await lateFired.1 = some r ∧ r.outcome = .ok ⟨"B", 0, []⟩) ∧
      ∃ r, (answered.perform Note ⟨true, true⟩ (.caller .closeAndReceive : Action Note)).1 =
          .reply r ∧ r.outcome = .ok ⟨"B", 0, []⟩ := by
  have begun : (received ((Session.start plainStream).run Note answeredNote).1, answered.held) =
      (([] : List (Event Note)), true) := by
    decide +kernel
  have late : (received lateFired.1, lateFired.2.held) =
      ([.headers .empty, .message ⟨"B", 0, []⟩] ++ [.complete none .empty], true) :=
    Session.run_of_within 1 _ _ (fun r => (received r.1, r.2.held)) (by decide +kernel)
  have all : received ((Session.start answered.stream.closeSend).run Note
      (Session.receiving Note ⟨true, true⟩ 3)).1 =
        [.headers .empty, .message ⟨"B", 0, []⟩] ++ [.complete none .empty] :=
    Session.run_of_within 1 _ _ (fun r => received r.1) (by decide +kernel)
  obtain ⟨silent, held⟩ := Prod.mk.inj begun
  obtain ⟨whole, still⟩ := Prod.mk.inj late
  obtain ⟨waiting, atOnce⟩ := reply_follows (.opened .idle .proto () (.fresh 1) none) answeredNote
    (show (Session.start plainStream).run Note answeredNote = (_, answered) from rfl) silent held
  refine ⟨still, ?_, ?_⟩
  · obtain ⟨resolved, follows⟩ :=
      waiting lateFire (show _ = (lateFired.1, lateFired.2) from rfl) still
    obtain ⟨r, made, follows⟩ := Reply.follows_of_complete resolved follows whole
    exact ⟨r, made, (follows.success _).mpr ⟨rfl, rfl⟩⟩
  · obtain ⟨r, replied, follows⟩ := (atOnce ⟨true, true⟩).1 3 _ none .empty all
    exact ⟨r, replied, (follows.success _).mpr ⟨rfl, rfl⟩⟩

end RpcWire
