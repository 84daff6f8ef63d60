import RpcWire.Client.Config
import RpcWire.Http.Target

/-!
# Building a client

A client is built from its configuration and from wishes about the transport. A
client can only be built for an `http` or `https` URL.
-/

namespace RpcWire

variable {σ : Type}

structure ClientBuilder (σ : Type) where
  config : ClientConfig σ
  /-- Whether a transport other than the usual one is used. -/
  ownTransport : Bool
  /-- Whether there are settings for TLS. -/
  tls : Bool
  /-- Whether to speak HTTP/2 only, if anything is said about it. -/
  http2Only : Option Bool

/-- A builder for a host of which nothing else is said. -/
def ClientBuilder.new (host : String) : ClientBuilder σ := ⟨.new host, false, false, none⟩

inductive BuildError where
  | invalidUrl (host : String)
  | invalidScheme (scheme : String)
  deriving DecidableEq, Repr

def BuildError.message : BuildError → String
  | invalidUrl host => "invalid URL: " ++ host
  | invalidScheme scheme =>
    "unsupported URL scheme \"" ++ scheme ++ "\": expected http or https"

/-- The configuration of the client, if it can be built. -/
def ClientBuilder.build (b : ClientBuilder σ) : Except BuildError (ClientConfig σ) :=
  match Http.Target.parse? b.config.host with
  | none => .error (.invalidUrl b.config.host)
  | some target =>
    if target.scheme = some "http" ∨ target.scheme = some "https" then .ok b.config
    else .error (.invalidScheme (target.scheme.getD ""))

end RpcWire
