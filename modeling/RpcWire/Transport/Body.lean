import RpcWire.Bytes

/-!
# Bodies of requests

A body is handed to the network piece by piece. Before each piece the network
asks whether the body is at its end and how long the rest is; of a body that is
still being written neither is known.
-/

namespace RpcWire.Transport

/-- What is left of the body of a request. -/
inductive Body where
  | empty
  /-- A body that is sent in one piece, if it has not been sent yet. -/
  | full (data : Option Bytes)
  /-- The pieces of a body that is still being written. -/
  | streaming (pieces : List Bytes)
  deriving DecidableEq, Repr

namespace Body

def ofBytes (data : Bytes) : Body := if data = [] then empty else full (some data)

/-- Whether the body is known to be at its end. -/
def isEnd : Body → Bool
  | empty => true
  | full data => data.isNone
  | streaming _ => false

/-- The length of what is left, if it is known. -/
def exactLength? : Body → Option Nat
  | empty => some 0
  | full data => some (data.getD []).length
  | streaming _ => none

/-- The next piece, and what is left after it. -/
def next? : Body → Option (Bytes × Body)
  | empty => none
  | full none => none
  | full (some data) => some (data, full none)
  | streaming [] => none
  | streaming (piece :: pieces) => some (piece, streaming pieces)

def pieces : Body → List Bytes
  | empty => []
  | full data => data.toList
  | streaming pieces => pieces

/-- The bodies that are left one after another, the first being the body itself, each with the
piece that comes next. -/
def stages (b : Body) : List (Body × Option Bytes) :=
  match _h : b.next? with
  | none => [(b, none)]
  | some (piece, rest) => (b, some piece) :: stages rest
termination_by b.pieces.length
decreasing_by
  cases b with
  | empty => cases _h
  | full data => cases data <;> cases _h; simp [pieces]
  | streaming ps => cases ps <;> cases _h; simp [pieces]

end Body

end RpcWire.Transport
