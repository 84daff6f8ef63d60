import RpcWire.Client.Connect
import RpcWire.Client.Grpc

/-!
# The hooks of a client

The hook of the protocol comes last on the way out and first on the way back;
the interceptors of the client come before it, in the order in which they were
added. The state of a stream is what the interceptors remember and what the
protocol remembers.
-/

namespace RpcWire

variable {σ : Type}

/-- What a protocol has to remember of a stream. -/
abbrev StreamMemory := Grpc.StreamState

/-! ## Protocols -/

def UnaryHook.pure (request : Http.Request → Except Failure Http.Request)
    (response : Http.Response → Http.Response) : UnaryHook σ :=
  ⟨fun s r => (request r, s), fun s r => (response r, s)⟩

/-- What the protocol does to a unary call. -/
def protocolUnary {τ : Type} (c : ClientConfig σ) : UnaryHook τ :=
  match c.family with
  | .connect => .pure (Connect.unaryRequest c) (Connect.unaryResponse c)
  | .grpc => .pure (fun r => Grpc.packBody c (Grpc.prepare c r)) (Grpc.unaryResponse c)
  | .grpcWeb => .pure (fun r => Grpc.packBody c (Grpc.prepareWeb c r)) (Grpc.unaryWebResponse c)

/-- What the protocol does to the request that opens a stream. -/
def openingRequest (c : ClientConfig σ) (r : Http.Request) : Http.Request :=
  match c.family with
  | .connect => Connect.streamRequest c r
  | .grpc => Grpc.prepare c r
  | .grpcWeb => Grpc.prepareWeb c r

/-- What the protocol makes of an event of a stream. -/
def protocolEvent (c : ClientConfig σ) (m : StreamMemory) (e : Event Bytes) :
    Event Bytes × StreamMemory :=
  match c.family with
  | .connect => let (e, pool) := Connect.streamEvent c m.pool e; (e, { m with pool })
  | .grpc => Grpc.streamEvent .grpc c m e
  | .grpcWeb => Grpc.streamEvent .grpcWeb c m e

/-- What the protocol does to a stream. -/
def protocolStream (c : ClientConfig σ) : StreamHook StreamMemory where
  request m r := (.ok (openingRequest c r), m)
  message m b := (Grpc.packMessage c b, m)
  event := protocolEvent c

/-! ## Clients -/

namespace ClientConfig

/-- Everything that is done to a unary call. -/
def unaryHook (c : ClientConfig σ) : UnaryHook σ :=
  .chain (c.interceptors.map Interceptor.unary ++ [protocolUnary c])

/-- Everything that is done to a stream. -/
def streamHook (c : ClientConfig σ) : StreamHook (σ × StreamMemory) :=
  .chain (c.interceptors.map (fun i => i.stream.onFirst) ++ [(protocolStream c).onSecond])

end ClientConfig

end RpcWire
