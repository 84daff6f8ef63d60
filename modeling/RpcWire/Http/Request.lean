import RpcWire.Call.Method
import RpcWire.Call.Timeout
import RpcWire.Metadata

/-!
# Outgoing requests

A request as a client prepares it: interceptors change it, and a transport puts
it on the wire. The body of a stream is sent message by message, so there the
`body` is not used.
-/

namespace RpcWire.Http

structure Request where
  url : String
  /-- The HTTP method. -/
  verb : String
  headers : Metadata
  contentType : String
  body : Bytes
  timeout : Option Nanoseconds
  /-- The method that is called. -/
  callee : Method
  deriving DecidableEq

/-- The text without slashes at its end. -/
def withoutTrailingSlashes (s : String) : String :=
  String.ofList (Text.dropTrailing (· == '/') s.toList)

/-- A POST without a body to a method at a base URL. -/
def Request.post (base : String) (callee : Method) : Request where
  url := withoutTrailingSlashes base ++ "/" ++ callee.path
  verb := "POST"
  headers := .empty
  contentType := ""
  body := []
  timeout := none
  callee := callee

end RpcWire.Http
