import RpcWire.Proofs.Session.Run

/-!
# Why a call is aborted

A call does not time out before its deadline has passed, and is not canceled
before the signal was fired or its caller asked for it. A clock only moves on,
so whatever aborted a call is still there after the rest of the session.

* `Stream.Explained`: what a stream and its clock say of an abort;
* `Session.run_explained`: so it is after any session.
-/

namespace RpcWire

variable {σ : Type}

theorem Phase.ofAbort_injective : Function.Injective Phase.ofAbort := by
  intro a b same
  cases a <;> cases b <;> first | rfl | cases same

namespace Stream

/-- Whatever abort a stream has come to, its clock has come to as well, unless the caller canceled:
`asked` tells whether that can be. -/
def Explained (asked : Prop) (s : Stream σ) : Prop :=
  ∀ a, s.phase = .ofAbort a → s.clock.Due a ∨ a = .canceled ∧ asked

namespace Explained

variable {asked : Prop} {s : Stream σ}

/-- A call that is pending has come to no abort. -/
theorem of_pending (pending : s.phase = .pending) : s.Explained asked := by
  intro a come
  rw [pending] at come
  cases a <;> cases come

/-- The first abort of a call is the one that it comes to; a later one changes nothing. -/
theorem abort (h : s.Explained asked) {a : Abort} (why : s.clock.Due a ∨ a = .canceled ∧ asked) :
    (s.abort a).2.Explained asked := by
  intro b come
  replace come : s.phase.advance (.ofAbort a) = .ofAbort b := come
  by_cases pending : s.phase = .pending
  · rw [Phase.advance, if_pos pending] at come
    exact Phase.ofAbort_injective come ▸ why
  · -- what the call came to before, it does not leave
    rw [Phase.advance_of_ne pending] at come
    exact h b come

theorem finish {β : Type} (h : s.Explained asked) (cause : Option Failure) (trailers : Metadata) :
    (s.finish (α := β) cause trailers).2.Explained asked := by
  intro a come
  replace come : s.phase.advance .completed = .ofAbort a := come
  by_cases pending : s.phase = .pending
  · rw [Phase.advance, if_pos pending] at come
    cases a <;> cases come
  · rw [Phase.advance_of_ne pending] at come
    exact h a come

theorem lasting : Lasting (Explained (σ := σ) asked) where
  still h _ _ _ _ _ := h
  abort h _ due := h.abort (.inl due)
  finish _ _ h := h.finish

theorem cancel (h : s.Explained asked) (canceling : asked) : s.cancel.Explained asked := by
  unfold Stream.cancel
  split
  · exact h
  · exact h.abort (.inr ⟨rfl, canceling⟩)

end Explained

end Stream

namespace Session

variable {α β : Type} [Message α] [Message β] {asked : Prop}

/-- Of all that a caller does, only canceling aborts a call that its clock does not. -/
theorem performHeld_explained {s : Stream σ} (h : s.Explained asked) (f : Favour)
    {a : CallerAction α} (canceling : a = .cancel → asked) :
    (performHeld β s f a).2.stream.Explained asked := by
  have lasting : Stream.Lasting (Stream.Explained (σ := σ) asked) := Stream.Explained.lasting
  cases a with
  | send message =>
    have hs := lasting.sent h (s.sent_send f message)
    simp only [performHeld]
    rcases hr : s.send f message with ⟨_ | _ | _, t⟩ <;> rw [hr] at hs <;> exact hs
  | receive =>
    rcases performHeld_receive (α := α) (β := β) s f with ⟨r, t, receives, seen⟩ | seen <;>
      rw [seen]
    · exact lasting.receives receives h
    · exact h
  | closeAndReceive =>
    rcases performHeld_closeAndReceive (α := α) (β := β) s f with ⟨rs, t, gathers, seen⟩ | seen <;>
      rw [seen]
    · have closed : s.closeSend.Explained asked := h
      show t.Explained asked
      exact lasting.gathers gathers closed
    · exact h
  | collect =>
    rcases performHeld_collect (α := α) (β := β) s f with ⟨rs, t, gathers, seen | seen⟩ | seen <;>
      rw [seen]
    · show t.Explained asked
      exact lasting.gathers gathers h
    · show t.Explained asked
      exact lasting.gathers gathers h
    · exact h
  | cancel => exact h.cancel (canceling rfl)
  | closeSend => exact h
  | headers => exact h
  | drop => exact h

theorem perform_explained {s : Session σ} (h : s.stream.Explained asked) (f : Favour)
    {a : Action α} (canceling : a = .caller .cancel → asked) :
    (s.perform β f a).2.stream.Explained asked := by
  rcases s.perform_cases (β := β) f a with ⟨c, rfl⟩ | ⟨link, clock, after, due, -⟩
  · simp only [perform]
    split
    · exact performHeld_explained h f fun cancel => canceling (congrArg Action.caller cancel)
    · exact h
  · rw [after]
    exact fun b come => (h b come).imp_left due

/-- **No abort without its reason.** A call that has timed out is late, and one that was canceled
had its signal fired or was canceled by its caller. -/
theorem run_explained {s : Session σ} (h : s.stream.Explained asked)
    {actions : List (Favour × Action α)}
    (canceling : (∃ f, (f, .caller .cancel) ∈ actions) → asked) :
    (s.run β actions).2.stream.Explained asked := by
  induction actions generalizing s with
  | nil => exact h
  | cons fa rest ih =>
    obtain ⟨f, a⟩ := fa
    refine ih (perform_explained h f ?_) ?_
    · rintro rfl
      exact canceling ⟨f, List.mem_cons_self⟩
    · rintro ⟨f, later⟩
      exact canceling ⟨f, List.mem_cons_of_mem _ later⟩

end Session

end RpcWire
