import RpcWire.Status.Failure

/-!
# The life of a call

A call is pending until it is completed, its deadline passes or its caller
cancels it, whichever comes first; after that its phase never changes.

A call that is aborted looks canceled to everything below it. `Phase.resolve`
tells the two reasons apart again: what was canceled because of the deadline is
reported as such.
-/

namespace RpcWire

/-- Where a call is in its life. -/
inductive Phase where
  | pending
  | timedOut
  | canceled
  | completed
  deriving DecidableEq, Repr

/-- Why a call is aborted. -/
inductive Abort where
  | timedOut
  | canceled
  deriving DecidableEq, Repr

namespace Phase

def name : Phase → String
  | pending => "pending"
  | timedOut => "timed_out"
  | canceled => "canceled_by_caller"
  | completed => "completed"

/-- A pending call moves on; any other stays where it is. -/
def advance (p next : Phase) : Phase := if p = pending then next else p

/-- The failure that is reported for one that came up in this phase. -/
def resolve (p : Phase) (f : Failure) : Failure :=
  if f.code = .canceled ∧ p = timedOut then
    (f.withCode .deadlineExceeded).withMessage "deadline exceeded"
  else f

/-- The phase of a call that is aborted while it is pending. -/
def ofAbort : Abort → Phase
  | .timedOut => timedOut
  | .canceled => canceled

/-- The phase after an abort. -/
def abort (p : Phase) (a : Abort) : Phase := p.advance (ofAbort a)

/-- The failure that a call ends with when it is aborted and so comes to a phase. -/
def abortFailure (p : Phase) : Failure := p.resolve (.new .canceled "call canceled")

/-- A call that is no longer pending stays where it is. -/
theorem advance_of_ne {p next : Phase} (h : p ≠ pending) : p.advance next = p := by
  simp [advance, h]

/-- Moving on twice is moving on once. -/
theorem advance_advance {p a b : Phase} (h : a ≠ pending) :
    (p.advance a).advance b = p.advance a := by
  by_cases hp : p = pending
  · simp [advance, hp, h]
  · simp [advance, hp]

end Phase

end RpcWire
