import RpcWire.Client.Builder
import RpcWire.Inspect.Shape
import RpcWire.Transport.Body
import RpcWire.Transport.Settings

/-!
# What is shown of clients and transports

The shapes of everything that a client is made of. Interceptors are only
counted, pools only named, and settings for TLS only said to be there.
-/

namespace RpcWire

open Inspect (Shape)

def Pool.shape (p : Pool) : Shape := .tuple "BoxedPool" [.text p.name]

/-- How requests are compressed. -/
def Threshold.shape (t : Threshold) : Shape :=
  .record "RequestCompression" [("min_bytes", .nat t.minBytes), ("pool", t.pool.shape)] false

def Family.shape : Family → Shape
  | connect => .word "Connect"
  | grpc => .word "Grpc"
  | grpcWeb => .word "GrpcWeb"

def Encoding.shape : Encoding → Shape
  | proto => .word "Proto"
  | json => .word "Json"

def GetPolicy.shape : GetPolicy → Shape
  | never => .word "Disabled"
  | always => .word "Enabled"
  | upTo maxBytes =>
    .record "EnabledWithFallback" [("max_message_bytes", .nat maxBytes)] false

variable {σ : Type}

def ClientConfig.shape (c : ClientConfig σ) : Shape :=
  .record "ProtocolClientConfig"
    [("host", .text c.host),
      ("protocol", c.family.shape),
      ("encoding", c.encoding.shape),
      ("request_compression", .option Threshold.shape c.compression),
      ("compression_pools", .list (c.pools.names.map Shape.text)),
      ("get_configuration", c.get.shape),
      ("interceptors", .nat c.interceptors.length),
      ("timeout", .option Shape.time c.timeout)] false

/-- A client, of which the transport is not shown. -/
def ClientConfig.clientShape (c : ClientConfig σ) : Shape :=
  .record "ProtocolClient" [("config", c.shape)] true

def ClientBuilder.shape (b : ClientBuilder σ) : Shape :=
  .record "ClientBuilder"
    [("config", b.config.shape),
      ("transport", .bool b.ownTransport),
      ("tls_config", .bool b.tls),
      ("http2_only", .option Shape.bool b.http2Only)] false

/-- An interceptor that only looks at requests. -/
def Interceptor.requestShape : Shape := .record "RequestInterceptor" [] false

namespace Transport

/-- A body, of which only the length is shown. -/
def Body.shape : Body → Shape
  | empty => .word "TransportBody::Empty"
  | full data => .record "TransportBody::Full"
      [("data_len", .option (fun d : Bytes => .nat d.length) data)] false
  | streaming _ => .word "TransportBody::Streaming"

/-- A transport that is still being set up. -/
def Settings.builderShape (s : Settings) : Shape :=
  .record "HyperTransportBuilder"
    [("tls_config", .bool s.tls),
      ("http2_only", .bool s.http2Only),
      ("pool_idle_timeout", .option Shape.time s.idleTimeout),
      ("pool_max_idle_per_host", .nat s.maxIdle),
      ("h2_initial_stream_window_size", .option Shape.nat s.streamWindow),
      ("h2_initial_connection_window_size", .option Shape.nat s.connectionWindow),
      ("h2_keep_alive_interval", .option Shape.time s.keepAliveInterval),
      ("h2_keep_alive_timeout", .option Shape.time s.keepAliveTimeout)] false

def Settings.shape (s : Settings) : Shape :=
  .record "HyperTransport" [("http2_only", .bool s.http2Only)] true

end Transport

end RpcWire
