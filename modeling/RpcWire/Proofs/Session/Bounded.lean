import RpcWire.Proofs.Session.Run

/-!
# Sessions that are computed

A loop that receives has no bound, so that a session is not computed by its
definition. The sessions here give every loop a number of rounds, and have no
value if that is not enough; where they have one, it is the session's own
(`Session.run_of_within`).
-/

namespace RpcWire

variable {σ β γ : Type} [Message β]

namespace Stream

/-- Receiving, in less than so many turns. -/
def receiveWithin (β : Type) [Message β] (turns : Nat) (s : Stream σ) (f : Favour) :
    Option (Receiving β × Stream σ) :=
  loopWithin (look β f) turns s

def gatherWithin (take : γ → Receiving β → γ) (more : γ → Bool) (rounds : Nat) (g : γ)
    (s : Stream σ) (f : Favour) : Option (γ × Stream σ) :=
  loopWithin (round take more fun s => s.receiveWithin β rounds f) rounds (g, s)

/-- A bound that is met does not show in the result. -/
theorem receive_of_within {turns : Nat} {s : Stream σ} {f : Favour} {r : Receiving β × Stream σ}
    (within : s.receiveWithin β turns f = some r) : s.receive β f = some r :=
  loop_of_within id within

theorem gather_of_within {take : γ → Receiving β → γ} {more : γ → Bool} {rounds : Nat} {g : γ}
    {s : Stream σ} {f : Favour} {r : γ × Stream σ}
    (within : s.gatherWithin take more rounds g f = some r) : s.gather take more g f = some r := by
  refine loop_of_within ?_ within
  rintro ⟨g, s⟩ come taken
  obtain ⟨received, within, taken⟩ := Option.bind_eq_some_iff.mp taken
  rw [round, receive_of_within within]
  exact taken

end Stream

namespace Session

variable {α : Type} [Message α]

/-- What a caller who holds the stream does, with so many rounds for each loop. -/
def performHeldWithin (β : Type) [Message β] (rounds : Nat) (s : Stream σ) (f : Favour) :
    CallerAction α → Option (Observation β × Session σ)
  | .receive => (s.receiveWithin β rounds f).map fun (r, s) => (.ofReceiving r, .start s)
  | .closeAndReceive =>
    (s.closeSend.gatherWithin Gathered.take (fun g => g.reply.isNone) rounds Gathered.empty f).map
      fun (g, s) => (g.reply.elim .waiting .reply, release s)
  | .collect =>
    (s.gatherWithin Stream.Drained.take (fun _ => true) rounds ⟨[], false⟩ f).map fun (d, s) =>
      (if d.ended then .events d.events else .waiting, release s)
  | a => some (performHeld β s f a)

def performWithin (β : Type) [Message β] (rounds : Nat) (s : Session σ) (f : Favour) :
    Action α → Option (Observation β × Session σ)
  | .caller a => if s.held then performHeldWithin β rounds s.stream f a else some (.closed, s)
  | a => some (s.perform β f a)

def runWithin (β : Type) [Message β] (rounds : Nat) (s : Session σ) :
    List (Favour × Action α) → Option (List (Observation β) × Session σ)
  | [] => some ([], s)
  | (f, action) :: rest => do
    let (seen, s) ← s.performWithin β rounds f action
    let (more, s) ← s.runWithin β rounds rest
    return (seen :: more, s)

/-- Nor in what a caller sees. -/
theorem performHeld_of_within {rounds : Nat} {s : Stream σ} {f : Favour} {a : CallerAction α}
    {r : Observation β × Session σ} (within : performHeldWithin β rounds s f a = some r) :
    performHeld β s f a = r := by
  cases a with
  | receive =>
    obtain ⟨⟨come, t⟩, received, rfl⟩ := Option.map_eq_some_iff.mp within
    simp only [performHeld, Stream.receive_of_within received]
  | closeAndReceive =>
    obtain ⟨⟨⟨headers, message, extra, reply⟩, t⟩, gathered, rfl⟩ :=
      Option.map_eq_some_iff.mp within
    simp only [performHeld, Stream.awaitReply, Stream.gather_of_within gathered]
    cases reply <;> rfl
  | collect =>
    obtain ⟨⟨⟨events, ended⟩, t⟩, gathered, rfl⟩ := Option.map_eq_some_iff.mp within
    simp only [performHeld, Stream.drain, Stream.gather_of_within gathered]
    cases ended <;> rfl
  | _ => exact Option.some.inj within

theorem perform_of_within {rounds : Nat} {s : Session σ} {f : Favour} {a : Action α}
    {r : Observation β × Session σ} (within : s.performWithin β rounds f a = some r) :
    s.perform β f a = r := by
  cases a with
  | caller a =>
    simp only [performWithin] at within
    by_cases held : s.held = true
    · rw [if_pos held] at within
      exact (if_pos held).trans (performHeld_of_within within)
    · rw [if_neg held] at within
      exact (if_neg held).trans (Option.some.inj within)
  | _ => exact Option.some.inj within

/-- A run all of whose loops stay within a bound is the run. -/
theorem run_eq_of_within {rounds : Nat} {s : Session σ} {actions : List (Favour × Action α)}
    {r : List (Observation β) × Session σ} (within : s.runWithin β rounds actions = some r) :
    s.run β actions = r := by
  induction actions generalizing s r with
  | nil => exact Option.some.inj within
  | cons fa rest ih =>
    obtain ⟨f, a⟩ := fa
    obtain ⟨⟨seen, t⟩, first, within⟩ := Option.bind_eq_some_iff.mp within
    obtain ⟨⟨more, u⟩, later, within⟩ := Option.bind_eq_some_iff.mp within
    cases within
    simp only [run, perform_of_within first, ih later]

/-- Anything that a session shows, if it is computed within a bound. -/
theorem run_of_within (rounds : Nat) (s : Session σ) (actions : List (Favour × Action α)) {τ : Type}
    (shows : List (Observation β) × Session σ → τ) {x : τ}
    (within : (s.runWithin β rounds actions).map shows = some x) : shows (s.run β actions) = x := by
  obtain ⟨r, computed, rfl⟩ := Option.map_eq_some_iff.mp within
  exact congrArg shows (run_eq_of_within computed)

end Session

end RpcWire
