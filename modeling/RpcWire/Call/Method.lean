import RpcWire.Text.Cut

/-!
# Methods

What a client has to know about a method: its path, whether requests and
responses are streams, and whether calling it twice is as good as once.
-/

namespace RpcWire

/-- Which sides of a call are streams. -/
inductive StreamType where
  | unary
  | clientStream
  | serverStream
  | bidiStream
  deriving DecidableEq, Repr

namespace StreamType

def name : StreamType → String
  | unary => "unary"
  | clientStream => "client_stream"
  | serverStream => "server_stream"
  | bidiStream => "bidi_stream"

def all : List StreamType := [unary, clientStream, serverStream, bidiStream]

def ofName? (s : String) : Option StreamType := all.find? fun t => t.name == s

/-- Whether requests and responses interleave. -/
def isDuplex (t : StreamType) : Bool := t == bidiStream

end StreamType

/-- What calling a method more than once does. -/
inductive Idempotency where
  | unknown
  | noSideEffects
  | idempotent
  deriving DecidableEq, Repr

namespace Idempotency

def name : Idempotency → String
  | unknown => "unknown"
  | noSideEffects => "no_side_effects"
  | idempotent => "idempotent"

def all : List Idempotency := [unknown, noSideEffects, idempotent]

def ofName? (s : String) : Option Idempotency := all.find? fun i => i.name == s

end Idempotency

structure Method where
  /-- The service and the method with a slash between them. -/
  path : String
  streamType : StreamType
  idempotency : Idempotency
  deriving DecidableEq, Repr

namespace Method

/-- The method of a path, which may be written with a slash in front. -/
def of (path : String) (streamType : StreamType) (idempotency : Idempotency) : Method :=
  ⟨((Text.stripStart? "/" path.toList).map String.ofList).getD path, streamType, idempotency⟩

/-- Whether a call may be sent as a GET. -/
def isSafe (m : Method) : Bool :=
  m.streamType == .unary && m.idempotency == .noSideEffects

end Method

end RpcWire
