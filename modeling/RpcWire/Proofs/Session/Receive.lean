import RpcWire.Proofs.Loop
import RpcWire.Proofs.Session.Step

/-!
# Loops that receive

Receiving is a loop of turns, and whoever receives again and again is in a loop
of such loops. A hook can keep either going for ever. What comes back from one
that does end is derived in as many steps as it made, so that whatever is said
of loops is proved by induction on these derivations.

* `Stream.receive_eq_some_iff`: receiving once (`Stream.Receives`);
* `Stream.gather_eq_some_iff`: receiving again and again (`Stream.Gathers`).
-/

namespace RpcWire

variable {σ β γ : Type} [Message β]

namespace Stream

/-! ## Receiving once -/

/-- What receiving comes to after finitely many turns. -/
inductive Receives (f : Favour) : Stream σ → Receiving β → Stream σ → Prop
  | event {s t e} : s.turn β f = (.event e, t) → Receives f s (.event e) t
  | skipped {s t u r} : s.turn β f = (.skipped, t) → Receives f t r u → Receives f s r u
  | waiting {s t} : s.turn β f = (.waiting, t) → Receives f s .waiting t
  | ended {s t} : s.turn β f = (.ended, t) → Receives f s .ended t

variable {f : Favour} {s t : Stream σ} {r : Receiving β}

/-- Receiving comes back with what finitely many turns lead to, and only with that. -/
theorem receive_eq_some_iff : s.receive β f = some (r, t) ↔ Receives f s r t := by
  rw [receive, loop_eq_some_iff]
  constructor
  · intro ends
    generalize come : (r, t) = result at ends
    induction ends with
    | @result s _ taken =>
      rcases turn : s.turn β f with ⟨e | _ | _ | _, u⟩ <;> rw [look, turn] at taken <;>
        cases taken <;> cases come
      · exact .event turn
      · exact .waiting turn
      · exact .ended turn
    | @next s _ _ taken _ ih =>
      rcases turn : s.turn β f with ⟨e | _ | _ | _, u⟩ <;> rw [look, turn] at taken <;>
        cases taken
      exact .skipped turn (ih come)
  · intro receives
    induction receives with
    | event turn => exact .result (by rw [look, turn])
    | skipped turn _ ih => exact .next (by rw [look, turn]) ih
    | waiting turn => exact .result (by rw [look, turn])
    | ended turn => exact .result (by rw [look, turn])

/-- Receiving has one result. -/
theorem Receives.unique {r' : Receiving β} {t' : Stream σ} (receives : Receives f s r t)
    (other : Receives f s r' t') : r = r' ∧ t = t' := by
  have same := receive_eq_some_iff.mpr receives
  rw [receive_eq_some_iff.mpr other] at same
  cases same
  exact ⟨rfl, rfl⟩

/-- Waiting changes nothing more: who asks again waits again. -/
theorem Receives.again (receives : Receives f s (.waiting : Receiving β) t) :
    Receives f t (.waiting : Receiving β) t := by
  generalize nothing : (.waiting : Receiving β) = r at receives
  induction receives with
  | event _ => cases nothing
  | skipped _ _ ih => exact ih nothing
  | @waiting s t turn =>
    have same : t = s := by
      have turned := s.turned_turn (β := β) f
      rw [turn] at turned
      generalize come : (Turn.waiting (α := β), t) = r at turned
      cases turned with
      | waiting _ next =>
        cases come
        exact next.eq_of_none
      | _ => cases come
    rw [same] at turn ⊢
    exact .waiting turn
  | ended _ => cases nothing

/-! ## Receiving again and again -/

variable {take : γ → Receiving β → γ} {more : γ → Bool}

/-- What is received, one after another, by who begins with something gathered. -/
inductive Gathers (take : γ → Receiving β → γ) (more : γ → Bool) (f : Favour) :
    γ → Stream σ → List (Receiving β) → Stream σ → Prop
  | last {g s r t} : Receives f s r t → ¬ (r.isEvent = true ∧ more (take g r) = true) →
      Gathers take more f g s [r] t
  | next {g s r t rs u} : Receives f s r t → r.isEvent = true → more (take g r) = true →
      Gathers take more f (take g r) t rs u → Gathers take more f g s (r :: rs) u

/-- Where there is nothing to receive yet, nothing is gathered. -/
theorem Gathers.eq_of_waiting {g : γ} {rs : List (Receiving β)} {u : Stream σ}
    (gathers : Gathers take more f g s rs u) (waits : Receives f s (.waiting : Receiving β) t) :
    rs = [.waiting] := by
  cases gathers with
  | last receives _ => rw [(receives.unique waits).1]
  | next receives event _ _ =>
    rw [(receives.unique waits).1] at event
    cases event

/-- A loop of receiving comes back with what is gathered from finitely many receptions. -/
theorem gather_eq_some_iff {g made : γ} :
    s.gather take more g f = some (made, t) ↔
      ∃ rs, Gathers take more f g s rs t ∧ rs.foldl take g = made := by
  rw [gather, loop_eq_some_iff]
  constructor
  · intro ends
    generalize begun : (g, s) = state at ends
    generalize come : (made, t) = result at ends
    induction ends generalizing g s with
    | result taken =>
      subst begun
      obtain ⟨⟨first, u⟩, received, taken⟩ := Option.bind_eq_some_iff.mp taken
      have receives := receive_eq_some_iff.mp received
      by_cases goes : first.isEvent = true ∧ more (take g first) = true
      · simp only [if_pos goes] at taken
        cases taken
      · simp only [if_neg goes] at taken
        cases taken
        cases come
        exact ⟨[first], .last receives goes, rfl⟩
    | next taken _ ih =>
      subst begun
      obtain ⟨⟨first, u⟩, received, taken⟩ := Option.bind_eq_some_iff.mp taken
      have receives := receive_eq_some_iff.mp received
      by_cases goes : first.isEvent = true ∧ more (take g first) = true
      · simp only [if_pos goes] at taken
        cases taken
        obtain ⟨rs, gathers, same⟩ := ih rfl come
        exact ⟨first :: rs, .next receives goes.1 goes.2 gathers, same⟩
      · simp only [if_neg goes] at taken
        cases taken
  · rintro ⟨rs, gathers, rfl⟩
    induction gathers with
    | last receives stops =>
      refine .result ?_
      rw [round, receive_eq_some_iff.mpr receives]
      exact congrArg some (if_neg stops)
    | next receives event goes _ ih =>
      refine .next ?_ ih
      rw [round, receive_eq_some_iff.mpr receives]
      exact congrArg some (if_pos ⟨event, goes⟩)

end Stream

end RpcWire
