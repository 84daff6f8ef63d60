/-!
# Loops

A loop goes from one state to the next, and is over when a step gives a result.
Nothing says that this ever happens: a loop that goes on for ever has no value,
and so has one of whose steps has none.
-/

namespace RpcWire

/-- Takes one step after another, up to the first that gives a result. -/
def loop {σ ρ : Type} (step : σ → Option (σ ⊕ ρ)) (s : σ) : Option ρ :=
  step s >>= fun
    | .inl next => by
      -- applied bare: a call written as a term would record where in the file it stands
      apply loop
      · exact step
      · exact next
    | .inr result => some result
partial_fixpoint

end RpcWire
