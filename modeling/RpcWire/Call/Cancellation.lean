/-!
# Cancellation handles

A handle cancels the calls that it is given to. A handle may be copied; the
copies share one signal, and a signal that has fired stays so.
-/

namespace RpcWire

structure CancelHandles where
  /-- The signal of each handle. -/
  signals : List Nat
  /-- The signals that have fired. -/
  fired : List Nat
  deriving DecidableEq, Repr

namespace CancelHandles

def single : CancelHandles := ⟨[0], []⟩

def signal (c : CancelHandles) (handle : Nat) : Nat := c.signals.getD handle 0

/-- One more handle for the signal of another. -/
def copy (c : CancelHandles) (handle : Nat) : CancelHandles :=
  { c with signals := c.signals ++ [c.signal handle] }

/-- One more handle with a signal of its own. -/
def create (c : CancelHandles) : CancelHandles :=
  { c with signals := c.signals ++ [c.signals.length] }

def cancel (c : CancelHandles) (handle : Nat) : CancelHandles :=
  if c.fired.contains (c.signal handle) then c
  else { c with fired := c.signal handle :: c.fired }

def isCanceled (c : CancelHandles) (handle : Nat) : Bool := c.fired.contains (c.signal handle)

/-- For every handle, whether its signal has fired. -/
def states (c : CancelHandles) : List Bool := (List.range c.signals.length).map c.isCanceled

/-- What has been canceled is canceled. -/
theorem isCanceled_cancel (c : CancelHandles) (handle : Nat) :
    (c.cancel handle).isCanceled handle = true := by
  unfold cancel isCanceled
  split
  · assumption
  · simp [signal]

end CancelHandles

end RpcWire
