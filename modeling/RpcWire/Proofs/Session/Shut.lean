import RpcWire.Proofs.Session.Outcome

/-!
# The end of sending

Sending ends when the caller ends it, with an abort, with the completion, or
with the stream itself, and it ends for good (`Session.Shut.run`): every send
after that fails in the same way and changes nothing (`Session.Shut.send`).
-/

namespace RpcWire

variable {σ : Type}

namespace Stream

/-- Sending that is over is over for good. -/
theorem unsending_invariant {β : Type} [Message β] :
    Invariant fun (s : Stream σ) (_ : List (Event β)) => s.sending = false := by
  apply Invariant.of_alone
  · intro s finished _ _ _ _ _ _
    exact finished
  · intro s _ a
    rfl
  · intro _ s _ _ _
    rfl
  · intro s _
    rfl

/-- As long as more can be sent, the call is pending and its completion has not been handed out. -/
theorem pending_invariant {β : Type} [Message β] :
    Invariant fun (s : Stream σ) (_ : List (Event β)) =>
      s.sending = true → s.phase = .pending ∧ s.completed = false := by
  apply Invariant.of_alone
  · intro s running _ _ _ _ _ _
    exact running
  · intro s _ a sending
    cases sending
  · intro _ s _ _ _ sending
    cases sending
  · intro s _ sending
    cases sending

end Stream

namespace Session

variable {α β : Type} [Message α] [Message β] {s : Session σ}

/-- A session in which nothing more can be sent: sending is over, or the stream has been given up.
-/
def Shut (s : Session σ) : Prop := s.held = true → s.stream.sending = false

/-- On a stream that is closed for sending, a send fails and changes nothing. -/
theorem Shut.send (shut : s.Shut) (f : Favour) (message : α) :
    s.perform (α := α) β f (.caller (.send message)) =
      (if s.held then
          .sent (.error (.new .failedPrecondition "stream is closed for sending"))
        else .closed, s) := by
  by_cases held : s.held = true
  · have closed : s.stream.send f message =
        (.failed (.new .failedPrecondition "stream is closed for sending"), s.stream) := by
      unfold Stream.send
      rw [if_neg (by rw [shut held]; decide)]
    obtain ⟨stream, _⟩ := s
    obtain rfl := held
    simp only [perform, performHeld, if_true, closed]
    rfl
  · simp only [perform, if_neg held]

/-- Once nothing more can be sent, nothing ever can. -/
theorem Shut.run (shut : s.Shut) (actions : List (Favour × Action α)) :
    (s.run β actions).2.Shut := by
  intro held
  exact run_keeps_stream Stream.unsending_invariant (shut (held_of_run held)) actions

omit [Message α] [Message β] in
theorem shut_of_ne (finished : s.stream.sending ≠ true) : s.Shut :=
  fun _ => Bool.eq_false_iff.mpr finished

/-- What ends sending in a session: its caller, an abort, or the completion. -/
inductive Over (actions : List (Favour × Action α)) (seen : List (Observation β))
    (t : Session σ) : Prop
  | closed (f) : (f, .caller .closeSend) ∈ actions → Over actions seen t
  | canceled (f) : (f, .caller .cancel) ∈ actions → Over actions seen t
  | aborted : t.stream.phase.isAborted → Over actions seen t
  | complete {cause trailers} : .complete cause trailers ∈ received seen → Over actions seen t

/-- A caller who ends sending, or cancels, can send no more. -/
theorem shut_of_caller (pending : s.stream.sending = true →
      s.stream.phase = .pending ∧ s.stream.completed = false) (f : Favour) {a : CallerAction α}
    (ends : a = .closeSend ∨ a = .cancel) : (s.perform β f (.caller a)).2.Shut := by
  by_cases held : s.held = true
  · intro _
    simp only [perform, if_pos held]
    rcases ends with rfl | rfl
    · rfl
    · show s.stream.cancel.sending = false
      unfold Stream.cancel
      split
      · next completed =>
        -- nothing is left to cancel, and sending ended with the completion
        apply Bool.eq_false_iff.mpr
        intro sending
        rw [(pending sending).2] at completed
        cases completed
      · rfl
  · simp only [perform, if_neg held]
    exact fun given => absurd given held

/-- When sending is over, nothing more can be sent. -/
theorem shut_of_over {s : Stream σ} (fresh : s.Fresh) {actions : List (Favour × Action α)}
    {seen : List (Observation β)} {t : Session σ} (run : (start s).run β actions = (seen, t))
    (finished : t.Over actions seen) : t.Shut := by
  obtain ⟨unseen, running⟩ := fresh.unseen
  have begun : s.sending = true → s.phase = .pending ∧ s.completed = false := by
    cases fresh with
    | opened _ _ _ _ _ => exact fun _ => ⟨rfl, rfl⟩
    | failed _ _ _ => exact nofun
  have pending (actions : List (Favour × Action α)) :
      ((start s).run β actions).2.stream.sending = true →
        ((start s).run β actions).2.stream.phase = .pending ∧
          ((start s).run β actions).2.stream.completed = false :=
    run_keeps_stream (Stream.pending_invariant (β := β)) begun actions
  have shut_of_mem : ∀ {f} {a : CallerAction α}, (f, .caller a) ∈ actions →
      a = .closeSend ∨ a = .cancel → t.Shut := by
    intro f a there ends
    obtain ⟨earlier, later, rfl⟩ := List.append_of_mem there
    have shut := (shut_of_caller (β := β) (pending earlier) f ends).run (β := β) later
    rw [run_append] at run
    obtain ⟨-, rfl⟩ := Prod.mk.inj run
    exact shut
  cases finished with
  | closed f there => exact shut_of_mem there (.inl rfl)
  | canceled f there => exact shut_of_mem there (.inr rfl)
  | aborted aborted =>
    have pending := pending actions
    rw [run] at pending
    exact shut_of_ne fun sending =>
      Phase.ne_pending_of_isAborted aborted (pending sending).1
  | complete there =>
    have pending := pending actions
    have ordered := orderly_run (β := β) unseen running actions
    rw [run] at pending ordered
    obtain ⟨_, drained⟩ := ordered.drained
    have completed := drained.completed_of_mem (List.mem_append_left _ there)
    apply shut_of_ne
    intro sending
    rw [(pending sending).2] at completed
    cases completed

end Session

end RpcWire
