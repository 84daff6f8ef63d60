import RpcWire.Metadata
import RpcWire.Status.Code

/-!
# Failures

A `Failure` is how a call ends when it does not succeed: a code, perhaps a
message, self-describing details, the headers or trailers gathered on the way,
and perhaps a cause, that is, the complaint of a lower layer that it wraps.
-/

namespace RpcWire

/-! ## Details -/

/-- A message of some named type, in its encoded form. -/
structure Detail where
  typeUrl : String
  value : Bytes
  deriving DecidableEq, Repr

/-- The type without what stands before its last slash. -/
def Detail.typeName (d : Detail) : String :=
  match Text.cutLast? '/' d.typeUrl.toList with
  | some (_, name) => String.ofList name
  | none => d.typeUrl

/-! ## Faults of framing -/

/-- What can be wrong with a length-prefixed frame. -/
inductive FrameFault where
  | shortHeader (expected actual : Nat)
  | shortBody (expected actual : Nat)
  | decompression (reason : String)
  | compression (reason : String)
  deriving DecidableEq, Repr

def FrameFault.message : FrameFault → String
  | shortHeader expected actual =>
    "incomplete envelope header: expected " ++ toString expected ++ " bytes, got " ++
      toString actual
  | shortBody expected actual =>
    "incomplete envelope body: expected " ++ toString expected ++ " bytes, got " ++
      toString actual
  | decompression reason => "decompression failed: " ++ reason
  | compression reason => "compression failed: " ++ reason

/-! ## Failures -/

/-- A complaint of a lower layer. Of readers of standard formats and of the network only the kind
is kept. -/
inductive Cause where
  | json
  | protobuf
  | base64
  | http
  | io (reason : String)
  | frame (fault : FrameFault)
  | other
  deriving DecidableEq, Repr

/-- The text of a complaint; where only the kind is kept, a tag that names it. -/
def Cause.message : Cause → String
  | json => "<json>"
  | protobuf => "<protobuf>"
  | base64 => "<base64>"
  | http => "<http>"
  | io reason => reason
  | frame fault => fault.message
  | other => "<other>"

/-- How a call ends when it does not succeed. -/
structure Failure where
  code : Code
  message : Option String
  details : List Detail
  metadata : Metadata
  cause : Option Cause
  deriving DecidableEq

namespace Failure

/-- A failure of which only the code is known. -/
def ofCode (code : Code) : Failure := ⟨code, none, [], .empty, none⟩

def new (code : Code) (message : String) : Failure := { ofCode code with message := some message }

/-- A failure that wraps a complaint and says what it says. -/
def ofCause (code : Code) (cause : Cause) : Failure :=
  { new code cause.message with cause := some cause }

/-- A fault of framing is an internal failure. -/
def ofFrame (fault : FrameFault) : Failure := ofCause .internal (.frame fault)

/-- The failure of a response under an HTTP status other than success. -/
def ofHttpStatus (status : Nat) (headers : Metadata) : Failure :=
  { new (Code.ofHttpStatus status) ("HTTP status " ++ toString status) with metadata := headers }

def withDetails (f : Failure) (details : List Detail) : Failure := { f with details }

def withMetadata (f : Failure) (metadata : Metadata) : Failure := { f with metadata }

def withMessage (f : Failure) (message : String) : Failure := { f with message := some message }

def withCode (f : Failure) (code : Code) : Failure := { f with code }

/-- Wraps a complaint, saying what was said before. -/
def withCause (f : Failure) (cause : Cause) : Failure := { f with cause := some cause }

def addDetail (f : Failure) (d : Detail) : Failure := { f with details := f.details ++ [d] }

/-- The code's name and, after a colon, the message. -/
def text (f : Failure) : String :=
  match f.message with
  | some message => f.code.name ++ ": " ++ message
  | none => f.code.name

end Failure

end RpcWire
