import RpcWire.Loop

/-!
# The end of a loop

What a loop gives is derived from its steps, finitely many of them
(`loop_eq_some_iff`), so that whatever is said of a loop is proved by induction
on these derivations. To compute it, a loop is given a number of steps
(`loop_of_within`).
-/

namespace RpcWire

variable {σ ρ : Type}

/-- The result that a loop comes to. -/
inductive LoopEnds (step : σ → Option (σ ⊕ ρ)) : σ → ρ → Prop
  | result {s r} : step s = some (.inr r) → LoopEnds step s r
  | next {s t r} : step s = some (.inl t) → LoopEnds step t r → LoopEnds step s r

variable {step : σ → Option (σ ⊕ ρ)} {s : σ} {r : ρ}

/-- A loop gives a result exactly if finitely many steps lead to it. -/
theorem loop_eq_some_iff : loop step s = some r ↔ LoopEnds step s r := by
  constructor
  · refine loop.partial_correctness step (LoopEnds step) ?_ s r
    intro rest ih s r ends
    obtain ⟨come, taken, ends⟩ := Option.bind_eq_some_iff.mp ends
    cases come with
    | inl t => exact .next taken (ih t r ends)
    | inr r =>
      cases ends
      exact .result taken
  · intro ends
    induction ends with
    | result taken =>
      rw [loop, taken]
      rfl
    | next taken _ ih =>
      rw [loop, taken]
      exact ih

/-- The loop, if it takes less than so many steps. -/
def loopWithin (step : σ → Option (σ ⊕ ρ)) : Nat → σ → Option ρ
  | 0, _ => none
  | steps + 1, s => do
    match ← step s with
    | .inl next => loopWithin step steps next
    | .inr result => return result

/-- A loop that takes less than so many steps, all of them those of the other, is the other. -/
theorem loop_of_within {steps : Nat} {other : σ → Option (σ ⊕ ρ)}
    (same : ∀ {s come}, step s = some come → other s = some come)
    (within : loopWithin step steps s = some r) : loop other s = some r := by
  induction steps generalizing s with
  | zero => cases within
  | succ steps ih =>
    obtain ⟨come, taken, within⟩ := Option.bind_eq_some_iff.mp within
    rw [loop, same taken]
    cases come with
    | inl t => exact ih within
    | inr r => exact within

end RpcWire
