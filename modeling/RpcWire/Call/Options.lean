import RpcWire.Call.Timeout
import RpcWire.Metadata

/-!
# Options of a call

What a caller may say about a single call: a timeout in place of the client's,
and headers.
-/

namespace RpcWire

structure CallOptions where
  timeout : Option Nanoseconds
  headers : Metadata

namespace CallOptions

def empty : CallOptions := ⟨none, .empty⟩

def withTimeout (o : CallOptions) (t : Nanoseconds) : CallOptions := { o with timeout := some t }

def withHeaders (o : CallOptions) (headers : Metadata) : CallOptions := { o with headers }

/-- The options with one more header, if it is legal. -/
def addHeader? (o : CallOptions) (name value : String) : Option CallOptions :=
  (o.headers.add? name value).map o.withHeaders

end CallOptions

end RpcWire
