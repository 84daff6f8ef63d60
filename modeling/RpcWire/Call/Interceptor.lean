import RpcWire.Call.Hook

/-!
# Interceptors

An interceptor provides the hooks for both kinds of calls. The ones here change
the request only, except for chains, which do what their parts do.
-/

namespace RpcWire

/-- The hooks for the two kinds of calls. -/
structure Interceptor (σ : Type) where
  unary : UnaryHook σ
  stream : StreamHook σ

namespace Interceptor

variable {σ : Type}

def idle : Interceptor σ := ⟨.idle, .idle⟩

def chain (a b : Interceptor σ) : Interceptor σ :=
  ⟨.chain [a.unary, b.unary], .chain [a.stream, b.stream]⟩

/-- Changes or rejects every request. -/
def ofRequest (change : Http.Request → Except Failure Http.Request) : Interceptor σ :=
  ⟨{ UnaryHook.idle with request := fun s r => (change r, s) },
    { StreamHook.idle with request := fun s r => (change r, s) }⟩

def rejecting (f : Failure) : Interceptor σ := ofRequest fun _ => .error f

def settingTimeout (timeout : Option Nanoseconds) : Interceptor σ :=
  ofRequest fun r => .ok { r with timeout }

/-- Makes a field the only one of its name in every request. -/
def settingField (f : { f : Field // f.Legal }) : Interceptor σ :=
  ofRequest fun r => .ok { r with headers := r.headers.setField f }

/-- The field of a name and a text, or what is wrong with them, the name being looked at first. -/
def field (name value : String) : Except Failure { f : Field // f.Legal } :=
  match Field.make? name (Utf8.encode value) with
  | some f => .ok f
  | none =>
    if isFieldName name then .error (.new .invalidArgument ("invalid header value: " ++ value))
    else .error (.new .invalidArgument ("invalid header name: " ++ name))

/-- Puts the path of the method into a header of every request. -/
def namingPath (header : String) : Interceptor σ :=
  ofRequest fun r => .ok { r with headers := r.headers.set header r.callee.path }

end Interceptor

end RpcWire
