import RpcWire.Call.Timeout

/-!
# Settings of the network transport

How connections are made and kept. None of them changes what a request looks
like or what a response means.
-/

namespace RpcWire.Transport

structure Settings where
  /-- Whether there are settings for TLS. -/
  tls : Bool
  http2Only : Bool
  /-- How long a connection may be idle. -/
  idleTimeout : Option Nanoseconds
  /-- How many connections to one host may be idle. -/
  maxIdle : Nat
  streamWindow : Option Nat
  connectionWindow : Option Nat
  keepAliveInterval : Option Nanoseconds
  keepAliveTimeout : Option Nanoseconds
  deriving DecidableEq, Repr

def Settings.standard : Settings where
  tls := false
  http2Only := false
  idleTimeout := some 90_000_000_000
  maxIdle := 32
  streamWindow := none
  connectionWindow := none
  keepAliveInterval := none
  keepAliveTimeout := none

def supportsTls : Bool := true

end RpcWire.Transport
