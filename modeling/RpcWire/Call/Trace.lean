import RpcWire.Call.Interceptor

/-!
# Tracing calls

Interceptors that leave a trace of every step they see, and may leave a mark on
whatever passes them, so that the order of steps shows.
-/

namespace RpcWire

/-- The steps that were seen, in order. -/
abbrev Trace := List String

namespace Interceptor

/-- The trace with one more step, seen by the interceptor of a name. -/
def trace (step name : String) (t : Trace) : Trace := t ++ [step ++ ":" ++ name]

/-- Traces every step. -/
def recording (name : String) : Interceptor Trace where
  unary :=
    { request := fun t r => (.ok r, trace "request" name t)
      response := fun t r => (r, trace "response" name t) }
  stream :=
    { request := fun t r => (.ok r, trace "open" name t)
      message := fun t b => (.ok b, trace "body" name t)
      event := fun t e => (e, trace "result" name t) }

/-- The field in which marks are left. -/
def markField : String := "x-tag"

/-- Traces every step, and leaves its name in the headers of requests and responses and at the end
of bodies and messages. The body of a failed response is left alone. -/
def marking (name : String) : Interceptor Trace :=
  let mark (b : Bytes) : Bytes := b ++ Utf8.encode name
  { unary :=
      { request := fun t r =>
          (.ok { r with headers := r.headers.add markField name, body := mark r.body },
            trace "request" name t)
        response := fun t r =>
          ({ r with
              headers := r.headers.add markField name
              body := if r.cause.isSome then r.body else mark r.body },
            trace "response" name t) }
    stream :=
      { request := fun t r =>
          (.ok { r with headers := r.headers.add markField name }, trace "open" name t)
        message := fun t b => (.ok (mark b), trace "body" name t)
        event := fun t e => (e.map mark, trace "result" name t) } }

end Interceptor

end RpcWire
