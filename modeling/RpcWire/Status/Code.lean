/-!
# Status codes

The sixteen ways a call can fail. Success is not a code. Each code has a wire
name, a number (used where the status is a number), and an HTTP status with
which a plain HTTP response reports it; numbers and HTTP statuses that belong
to no code have a code to stand for them.
-/

namespace RpcWire

/-- Why a call failed. -/
inductive Code where
  | canceled
  | unknown
  | invalidArgument
  | deadlineExceeded
  | notFound
  | alreadyExists
  | permissionDenied
  | resourceExhausted
  | failedPrecondition
  | aborted
  | outOfRange
  | unimplemented
  | internal
  | unavailable
  | dataLoss
  | unauthenticated
  deriving DecidableEq, Repr

namespace Code

/-- Every code, in the order of their numbers. -/
def all : List Code :=
  [canceled, unknown, invalidArgument, deadlineExceeded, notFound, alreadyExists,
    permissionDenied, resourceExhausted, failedPrecondition, aborted, outOfRange, unimplemented,
    internal, unavailable, dataLoss, unauthenticated]

theorem mem_all (c : Code) : c ∈ all := by cases c <;> decide

/-! ## Names -/

def name : Code → String
  | canceled => "canceled"
  | unknown => "unknown"
  | invalidArgument => "invalid_argument"
  | deadlineExceeded => "deadline_exceeded"
  | notFound => "not_found"
  | alreadyExists => "already_exists"
  | permissionDenied => "permission_denied"
  | resourceExhausted => "resource_exhausted"
  | failedPrecondition => "failed_precondition"
  | aborted => "aborted"
  | outOfRange => "out_of_range"
  | unimplemented => "unimplemented"
  | internal => "internal"
  | unavailable => "unavailable"
  | dataLoss => "data_loss"
  | unauthenticated => "unauthenticated"

/-- The code of a wire name; `cancelled` is a second spelling of the first one. -/
def ofName? (s : String) : Option Code :=
  if s = "cancelled" then some canceled else all.find? fun c => c.name == s

/-- The code of a wire name, a name that is none being unknown. -/
def ofName (s : String) : Code := (ofName? s).getD unknown

theorem ofName?_name (c : Code) : ofName? c.name = some c := by cases c <;> decide

theorem ofName_name (c : Code) : ofName c.name = c := by simp [ofName, ofName?_name]

/-! ## Numbers -/

/-- The number of a code, from 1 to 16. -/
def number : Code → Nat
  | canceled => 1
  | unknown => 2
  | invalidArgument => 3
  | deadlineExceeded => 4
  | notFound => 5
  | alreadyExists => 6
  | permissionDenied => 7
  | resourceExhausted => 8
  | failedPrecondition => 9
  | aborted => 10
  | outOfRange => 11
  | unimplemented => 12
  | internal => 13
  | unavailable => 14
  | dataLoss => 15
  | unauthenticated => 16

/-- The code of a number; zero is success, and a number that is none is unknown. -/
def ofNumber? (n : Int) : Option Code :=
  if n = 0 then none else some ((all.find? fun c => (c.number : Int) == n).getD unknown)

theorem ofNumber?_number (c : Code) : ofNumber? c.number = some c := by cases c <;> decide

theorem ofNumber?_eq_none {n : Int} : ofNumber? n = none ↔ n = 0 := by
  unfold ofNumber?
  split <;> simp_all

/-! ## HTTP statuses -/

/-- What an HTTP status says of a call whose response carried no status of its own. -/
def ofHttpStatus : Nat → Code
  | 400 => internal
  | 401 => unauthenticated
  | 403 => permissionDenied
  | 404 => unimplemented
  | 429 | 502 | 503 | 504 => unavailable
  | _ => unknown

/-- The HTTP status of a response that reports this code. -/
def httpStatus : Code → Nat
  | canceled | deadlineExceeded => 408
  | invalidArgument | failedPrecondition | outOfRange => 400
  | notFound | unimplemented => 404
  | alreadyExists | aborted => 409
  | permissionDenied => 403
  | resourceExhausted => 429
  | unavailable => 503
  | unauthenticated => 401
  | unknown | internal | dataLoss => 500

/-- A response that reports a failure never looks like success. -/
theorem httpStatus_ne_ok (c : Code) : c.httpStatus ≠ 200 := by cases c <;> decide

end Code

end RpcWire
